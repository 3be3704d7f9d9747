import EmbeddedRuntime.Protocol.Stream
import EmbeddedRuntime.Target.Steps

/-!
# `serve_client` of `target/target_server.c`

The server thread is the request thread of the target.  While it handles a
request the workers go on: a `Turn` is what they and the clock do before the
server's next access to the context.
-/

set_option autoImplicit false

namespace EmbeddedRuntime.Target.Server

open EmbeddedRuntime.Lib.Machine
open EmbeddedRuntime.Protocol.Packet
open EmbeddedRuntime.Protocol.Stream
open EmbeddedRuntime.Target.Context
open EmbeddedRuntime.Target.Handler
open EmbeddedRuntime.Target.Model

/-- A step of a worker or of the clock. -/
def Worker : Action → Prop
  | .tick _ | .sensor | .processing _ | .watchdog _ => True
  | _ => False

structure Turn where
  burst : List { action : Action // Worker action }
  order : OperandOrder

/-- The world at the server's next access, and the operand order of that access.
Beyond the list of turns the workers stand still. -/
def takeTurn (world : World) : List Turn → World × OperandOrder × List Turn
  | [] => (world, .clockFirst, [])
  | turn :: turns => (run step world (turn.burst.map (·.val)), turn.order, turns)

/-- The accesses of a handler call, up to a number of them. -/
def handleAccesses (world : World) (turns : List Turn) : Nat → World × List Turn
  | 0 => (world, turns)
  | count + 1 =>
      match world.main with
      | .handling _ _ =>
          let (world, order, turns) := takeTurn world turns
          handleAccesses (step world (.main order true)) turns count
      | _ => (world, turns)

/-- No handler makes more accesses. -/
def maxAccesses : Nat := 13

/-- A call of `mlrt_target_handle_packet` to its return; the response is in
`rsp`. -/
def handleRequest (world : World) (req : MlrtPacket) (turns : List Turn) : World × List Turn :=
  handleAccesses (step world (.request (some req) true)) turns maxAccesses

/-- The result of `serve_client`.  `stopped` is the world when the last read
returned; `unread` records what the server had not read when it answered each
request. -/
structure Served where
  code : Int
  stopped : World
  world : World
  socket : Socket
  unread : List (List UInt8)

/-- `serve_client` for a number of rounds; `none` when it is still serving. -/
def serveClient (world : World) (socket : Socket) (turns : List Turn) : Nat → Option Served
  | 0 => none
  | rounds + 1 =>
      match mlrtPacketReadFd socket .zero with
      | (.eof, _, socket) => some ⟨0, world, world, socket, []⟩
      | (.ecrc, _, socket) =>
          some ⟨0, world, step (takeTurn world turns).1 .rejectCrc, socket, []⟩
      | (.ok, req, socket) =>
          let (world, turns) := handleRequest world req turns
          match mlrtPacketWriteFd socket world.rsp with
          | (.ok, answered) =>
              (serveClient world answered turns rounds).map fun served =>
                { served with unread := socket.incoming :: served.unread }
          | (_, failed) => some ⟨-1, world, world, failed, []⟩
      | (_, _, socket) => some ⟨-1, world, world, socket, []⟩

end EmbeddedRuntime.Target.Server
