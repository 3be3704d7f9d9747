import EmbeddedRuntime.Lib.Machine
import EmbeddedRuntime.Network.Frames

/-!
# The remote command session of `network/client.c` and `network/server.c`

The interactive client and one `client_thread` of the server exchange frames
over a connection.  One action is one system call of one side: a `send` or a
`recv` of some bytes, the execution of a command, or a call interrupted by a
signal.  What a command prints and how it ends is given by `outcome`, a function
of the commands executed so far.
-/

set_option autoImplicit false

namespace EmbeddedRuntime.Network.Session

open EmbeddedRuntime.Network.Frames

abbrev Bytes := List UInt8

def maxCommand : Nat := 4096
def maxResponse : Nat := 1024 * 1024

def asciiBytes (text : String) : Bytes := text.toList.map fun c => UInt8.ofNat c.toNat

/-- The command that ends a session. -/
def exitCommand : Bytes := [0x65, 0x78, 0x69, 0x74]

/-! ## `execute_capture` -/

/-- How a child ends. -/
inductive WaitStatus where
  | exited (status : UInt8)
  | signaled (signal : Fin 128)
  | other
  deriving DecidableEq, Repr

def WaitStatus.exitCode : WaitStatus → Nat
  | .exited status => status.toNat
  | .signaled signal => 128 + signal
  | .other => 1

/-- What the command writes, one element for each `read` of the pipe, and how it ends. -/
structure Execution where
  chunks : List Bytes
  status : WaitStatus
  deriving DecidableEq, Repr

def truncated : Bytes := asciiBytes "\n[output truncated at 1 MiB]\n"

/-- `while (new_cap < needed) new_cap *= 2`. -/
def growCap (newCap needed : Nat) : Nat :=
  if newCap < needed ∧ 0 < newCap then growCap (2 * newCap) needed else newCap
termination_by needed - newCap

/-- The read loop of `execute_capture` with `buf` read so far into `cap` bytes. -/
def captureLoop (cap : Nat) (buf : Bytes) : List Bytes → Bytes
  | [] => buf
  | chunk :: chunks =>
      if chunk = [] then buf
      else if buf.length + chunk.length > maxResponse then
        let room := if maxResponse > buf.length then maxResponse - buf.length else 0
        let buf := buf ++ chunk.take room
        if buf.length + truncated.length ≤ cap then buf ++ truncated else buf
      else
        let cap :=
          if buf.length + chunk.length + 1 > cap then
            growCap (2 * cap) (buf.length + chunk.length + 1)
          else cap
        captureLoop cap (buf ++ chunk) chunks

/-- The output and the exit code. -/
def executeCapture (execution : Execution) : Bytes × Nat :=
  (captureLoop 4096 [] execution.chunks, execution.status.exitCode)

/-- The response `client_thread` makes of a command. -/
def response (execution : Execution) : Bytes :=
  let (output, code) := executeCapture execution
  asciiBytes ("exit_status=" ++ toString code ++ "\n") ++ output

/-! ## The two sides -/

inductive ClientPoint where
  | sending (line : Bytes) (pending : List Bytes)
  | receiving (line : Bytes) (receiving : Receiving)
  | leaving (rc : Nat) (pending : List Bytes)
  | closed (rc : Nat)
  deriving DecidableEq, Repr

def ClientPoint.isClosed : ClientPoint → Bool
  | .closed _ => true
  | _ => false

/-- `unread` are the lines on the standard input; `answers` records every command together with
the response read for it. -/
structure Client where
  point : ClientPoint
  unread : List Bytes
  answers : List (Bytes × Bytes)
  deriving DecidableEq, Repr

inductive ServerPoint where
  | receiving (receiving : Receiving)
  | executing (command : Bytes)
  | sending (response : Bytes) (pending : List Bytes)
  | closed
  deriving DecidableEq, Repr

/-- `commands` records the commands read for execution, `sent` the responses sent whole. -/
structure Server where
  point : ServerPoint
  commands : List Bytes
  sent : List Bytes
  deriving DecidableEq, Repr

structure State where
  client : Client
  server : Server
  toServer : Bytes
  toClient : Bytes
  deriving DecidableEq, Repr

/-- The end of `network_client_cli_main`. -/
def Client.leave (client : Client) (rc : Nat) : Client :=
  { client with point := .leaving rc (sendBuffers exitCommand) }

/-- The top of the interactive loop. -/
def Client.nextLine (client : Client) : Client :=
  match client.unread with
  | [] => client.leave 0
  | line :: unread =>
      let client := { client with unread := unread }
      if line = exitCommand then client.leave 0
      else if line.length > maxCommand then client.leave 2
      else { client with point := .sending line (sendBuffers line) }

/-- The bytes of a command up to its NUL, as `strcmp` and the shell see them. -/
def cString (command : Bytes) : Bytes := command.takeWhile (· ≠ 0)

/-- `client_thread` with a frame it has read. -/
def Server.receive (server : Server) (command : Bytes) : Server :=
  if command = [] ∨ cString command = exitCommand then { server with point := .closed }
  else { server with point := .executing (cString command) }

/-- One system call of the client with `n` bytes; a `recv` of none is the end of the stream. -/
def clientStep (state : State) (n : Nat) : Option State :=
  match state.client.point with
  | .sending line pending =>
      (send n pending).map fun (bytes, left) =>
        { state with
          toServer := state.toServer ++ bytes
          client :=
            { state.client with
              point := if left = [] then .receiving line (.header []) else .sending line left } }
  | .receiving line receiving =>
      if n = 0 then
        if state.toClient = [] ∧ state.server.point = .closed then
          some { state with client := state.client.leave 1 }
        else none
      else if n ≤ receiving.want ∧ n ≤ state.toClient.length then
        let rest := { state with toClient := state.toClient.drop n }
        match receiving.store (maxResponse + 128) (state.toClient.take n) with
        | .more next =>
            some { rest with client := { state.client with point := .receiving line next } }
        | .frame data =>
            some { rest with
              client :=
                Client.nextLine
                  { state.client with answers := state.client.answers ++ [(line, data)] } }
        | .tooBig => some { rest with client := state.client.leave 1 }
      else none
  | .leaving rc pending =>
      (send n pending).map fun (bytes, left) =>
        { state with
          toServer := state.toServer ++ bytes
          client :=
            { state.client with point := if left = [] then .closed rc else .leaving rc left } }
  | .closed _ => none

section Server
variable (outcome : List Bytes → Execution)

/-- One system call of the server with `n` bytes, or the execution of a command. -/
def serverStep (state : State) (n : Nat) : Option State :=
  match state.server.point with
  | .receiving receiving =>
      if n = 0 then
        if state.toServer = [] ∧ state.client.point.isClosed then
          some { state with server := { state.server with point := .closed } }
        else none
      else if n ≤ receiving.want ∧ n ≤ state.toServer.length then
        let rest := { state with toServer := state.toServer.drop n }
        match receiving.store maxCommand (state.toServer.take n) with
        | .more next =>
            some { rest with server := { state.server with point := .receiving next } }
        | .frame data => some { rest with server := state.server.receive data }
        | .tooBig => some { rest with server := { state.server with point := .closed } }
      else none
  | .executing command =>
      let commands := state.server.commands ++ [command]
      let data := response (outcome commands)
      some { state with
        server := { state.server with commands, point := .sending data (sendBuffers data) } }
  | .sending data pending =>
      (send n pending).map fun (bytes, left) =>
        { state with
          toClient := state.toClient ++ bytes
          server :=
            if left = [] then
              { state.server with
                point := .receiving (.header []), sent := state.server.sent ++ [data] }
            else { state.server with point := .sending data left } }
  | .closed => none

inductive Action where
  | client (n : Nat)
  | server (n : Nat)
  | interrupted
  deriving DecidableEq, Repr

/-- One action; an interrupted call is made again. -/
def step (state : State) : Action → Option State
  | .client n => clientStep state n
  | .server n => serverStep outcome state n
  | .interrupted => some state

end Server

/-- A new connection. -/
def start (lines : List Bytes) : State where
  client := Client.nextLine { point := .closed 0, unread := lines, answers := [] }
  server := { point := .receiving (.header []), commands := [], sent := [] }
  toServer := []
  toClient := []

end EmbeddedRuntime.Network.Session
