import EmbeddedRuntime.Shell.History
import EmbeddedRuntime.Target.Server

/-!
# `mlrt target`, the client of `target/target_client.c`

A command line ends at once or makes one connection: most commands send a
request and print the response, `inject-fault corrupt-crc` sends a spoilt frame
and reads nothing.  The arguments are bytes without a NUL, the first one being
the command.  What `perror` prints is left out.
-/

set_option autoImplicit false

namespace EmbeddedRuntime.Target.Client

open EmbeddedRuntime.Lib.ByteOrder
open EmbeddedRuntime.Protocol.Packet
open EmbeddedRuntime.Protocol.Stream
open EmbeddedRuntime.Shell.History
open EmbeddedRuntime.Target.Context
open EmbeddedRuntime.Target.Handler
open EmbeddedRuntime.Target.Model
open EmbeddedRuntime.Target.Server

abbrev Bytes := List UInt8

/-- What a process leaves behind: its exit code, its standard output and its
standard error. -/
structure Finished where
  code : Nat
  out : Bytes
  err : Bytes
  deriving DecidableEq, Repr

inductive Command where
  | status
  | setRate (rate : UInt16)
  | freezeWorker
  | corruptCrc
  | reset
  | fwInfo
  deriving DecidableEq, Repr

inductive CommandLine where
  | exits (result : Finished)
  | runs (path : Bytes) (command : Command)
  deriving DecidableEq, Repr

/-! ## The command line -/

def defaultSocket : Bytes := asciiBytes "/tmp/mlrt-target.sock"

def clientUsage : Bytes :=
  asciiBytes <|
    "usage: mlrt target <command> [args] [--socket PATH]\n" ++
    "commands:\n" ++
    "  status\n" ++
    "  set-rate HZ\n" ++
    "  inject-fault freeze-worker|corrupt-crc\n" ++
    "  reset\n" ++
    "  fw-info\n"

/-- The loop that looks for `--socket`: the last one with a value counts. -/
def socketPath (path : Bytes) : List Bytes → Bytes
  | [] => path
  | [_] => path
  | option :: value :: rest =>
      if option = asciiBytes "--socket" then socketPath value rest
      else socketPath path (value :: rest)

def usageError : CommandLine := .exits ⟨2, [], clientUsage⟩

/-- `target_client_cli_main` up to its connection. -/
def commandLine : List Bytes → CommandLine
  | [] => usageError
  | command :: args =>
      let path := socketPath defaultSocket args
      if command = asciiBytes "status" then .runs path .status
      else if command = asciiBytes "set-rate" then
        match args with
        | [] => usageError
        | text :: _ =>
            let (rate, left) := strtol text
            if left ≠ [] ∨ rate < 1 ∨ rate > 1000 then
              .exits ⟨2, [], asciiBytes "rate must be 1..1000\n"⟩
            else .runs path (.setRate (UInt16.ofNat rate.toNat))
      else if command = asciiBytes "inject-fault" then
        match args with
        | [] => usageError
        | fault :: _ =>
            if fault = asciiBytes "corrupt-crc" then .runs path .corruptCrc
            else if fault ≠ asciiBytes "freeze-worker" then usageError
            else .runs path .freezeWorker
      else if command = asciiBytes "reset" then .runs path .reset
      else if command = asciiBytes "fw-info" then .runs path .fwInfo
      else if command = asciiBytes "--help" ∨ command = asciiBytes "help" then
        .exits ⟨0, clientUsage, []⟩
      else usageError

/-! ## The request -/

/-- The zeroed request with the fields every command sets. -/
def request (type : UInt8) (seq : UInt32) : MlrtPacket :=
  { MlrtPacket.zero with version := protoVersion, type, seq }

def Command.request : Command → MlrtPacket
  | .status => Client.request msgStatusReq 1
  | .setRate rate =>
      { Client.request msgConfigSet 1 with
        length := 2, payload := putBytes MlrtPacket.zero.payload 0 (be16 rate) }
  | .freezeWorker =>
      { Client.request msgFaultInject 1 with
        length := 1, payload := putBytes MlrtPacket.zero.payload 0 [1] }
  | .corruptCrc => Client.request msgStatusReq 0xBAD
  | .reset => Client.request msgReset 1
  | .fwInfo => Client.request msgFwInfoReq 1

/-- The frame of `send_corrupt_crc`: its last byte is flipped in one bit. -/
def corruptFrame : Option Bytes :=
  match mlrtPacketEncode (some Command.corruptCrc.request)
      (some (List.replicate protoMaxFrame 0)) (some 0) with
  | (.ok, some frame, some frameLen) =>
      some ((frame.modify (frameLen - 1) (· ^^^ 1)).take frameLen)
  | _ => none

/-- `sizeof(addr.sun_path)`. -/
def sunPath : Nat := 108

/-! ## The response -/

/-- The fields of a status response, as `print_status` reads them. -/
structure Status where
  state : UInt8
  rateHz : UInt16
  uptimeMs : UInt32
  produced : UInt32
  processed : UInt32
  dropped : UInt32
  crcErrors : UInt32
  watchdogRecoveries : UInt32
  deriving DecidableEq, Repr

/-- `mlrt_target_state_name`. -/
def mlrtTargetStateName (state : UInt8) : String :=
  if state = TargetState.boot.code then "BOOT"
  else if state = TargetState.init.code then "INIT"
  else if state = TargetState.ready.code then "READY"
  else if state = TargetState.running.code then "RUNNING"
  else if state = TargetState.fault.code then "FAULT"
  else if state = TargetState.recovery.code then "RECOVERY"
  else "UNKNOWN"

def Status.ofPayload (payload : Bytes) : Status where
  state := payload.getD 0 0
  rateHz := getU16Be payload 1
  uptimeMs := getU32Be payload 3
  produced := getU32Be payload 7
  processed := getU32Be payload 11
  dropped := getU32Be payload 15
  crcErrors := getU32Be payload 19
  watchdogRecoveries := getU32Be payload 23

def Status.text (status : Status) : String :=
  "Target status\n" ++
  "  state:               " ++ mlrtTargetStateName status.state ++ "\n" ++
  "  rate_hz:             " ++ toString status.rateHz.toNat ++ "\n" ++
  "  uptime_ms:           " ++ toString status.uptimeMs.toNat ++ "\n" ++
  "  produced_samples:    " ++ toString status.produced.toNat ++ "\n" ++
  "  processed_samples:   " ++ toString status.processed.toNat ++ "\n" ++
  "  dropped_samples:     " ++ toString status.dropped.toNat ++ "\n" ++
  "  crc_errors:          " ++ toString status.crcErrors.toNat ++ "\n" ++
  "  watchdog_recoveries: " ++ toString status.watchdogRecoveries.toNat ++ "\n"

/-- What `%.*s` prints of a payload. -/
def payloadText (rsp : MlrtPacket) : Bytes :=
  (rsp.payload.toList.take rsp.length.toNat).takeWhile (· ≠ 0)

/-- `print_status`; the process ends with 0 also after a malformed response. -/
def printStatus (rsp : MlrtPacket) : Finished :=
  if rsp.type ≠ msgStatusRsp ∨ rsp.length ≠ 27 then
    ⟨0, [], asciiBytes "mlrt target: malformed STATUS_RSP\n"⟩
  else ⟨0, asciiBytes (Status.ofPayload rsp.payload.toList).text, []⟩

/-- `mlrt_message_type_name`. -/
def mlrtMessageTypeName (type : UInt8) : String :=
  match type with
  | 1 => "HEARTBEAT"
  | 2 => "SENSOR_DATA"
  | 3 => "STATUS_REQ"
  | 4 => "STATUS_RSP"
  | 5 => "CONFIG_SET"
  | 6 => "CONFIG_ACK"
  | 7 => "ERROR"
  | 8 => "FW_INFO_REQ"
  | 9 => "FW_INFO_RSP"
  | 10 => "FAULT_INJECT"
  | 11 => "RESET"
  | 12 => "RESET_ACK"
  | _ => "UNKNOWN"

/-- The value of the enumerator. -/
def protoCode : ProtoStatus → Int
  | .ok => 0
  | .einval => -1
  | .etoobig => -2
  | .eformat => -3
  | .ecrc => -4
  | .eio => -5
  | .eof => -6

/-- `target_client_cli_main` behind a successful `transact`. -/
def report (req rsp : MlrtPacket) : Finished :=
  if rsp.type = msgStatusRsp then printStatus rsp
  else if rsp.type = msgConfigAck then
    if req.type = msgConfigSet ∧ rsp.length = 2 then
      ⟨0, asciiBytes ("Target acknowledged rate_hz=" ++
        toString (getU16Be rsp.payload.toList 0).toNat ++ "\n"), []⟩
    else ⟨0, asciiBytes "Target accepted fault injection: freeze-worker\n", []⟩
  else if rsp.type = msgResetAck then ⟨0, asciiBytes "Target reset acknowledged\n", []⟩
  else if rsp.type = msgFwInfoRsp then
    ⟨0, asciiBytes "Firmware info: " ++ payloadText rsp ++ asciiBytes "\n", []⟩
  else
    ⟨0, asciiBytes ("Target response: " ++ mlrtMessageTypeName rsp.type ++ "\n"), []⟩

/-- The process behind the last call of `transact` on the socket. -/
def conclude (req : MlrtPacket) (rc : ProtoStatus) (rsp : MlrtPacket) : Finished :=
  if rc ≠ .ok then
    ⟨1, [], asciiBytes ("mlrt target: protocol error " ++ toString (protoCode rc) ++ "\n")⟩
  else if rsp.type = msgError then
    ⟨1, [], asciiBytes "target error: " ++ payloadText rsp ++ asciiBytes "\n"⟩
  else report req rsp

/-! ## A client and the server -/

/-- The arguments of one process, how the bytes are cut on both sides of its
connection, and what the target's workers do meanwhile. -/
structure Invocation where
  args : List Bytes
  clientReads : List Transfer
  clientWrites : List Transfer
  serverReads : List Transfer
  serverWrites : List Transfer
  turns : List Turn

/-- `serve_client` on a connection whose client has sent these bytes, to its
return. -/
def serveSent (world : World) (sent : Bytes) (invocation : Invocation) : Option Served :=
  serveClient world ⟨sent, [], invocation.serverReads, invocation.serverWrites, []⟩
    invocation.turns (sent.length + 1)

/-- `transact` and the report, against the server.  The server answers after the
request has been sent and has nothing else to send, so the response is what the
session has put out; without a request it puts out nothing and the client reads
the end of the stream. -/
def transactWith (world : World) (req : MlrtPacket) (invocation : Invocation) :
    Option (Finished × World) :=
  match mlrtPacketWriteFd ⟨[], [], [], invocation.clientWrites, []⟩ req with
  | (.ok, client) =>
      (serveSent world client.outgoing invocation).map fun served =>
        let (rc, rsp, _) := mlrtPacketReadFd
          ⟨served.socket.outgoing, [], invocation.clientReads, [], []⟩ .zero
        (conclude req rc rsp, served.world)
  | (rc, client) =>
      (serveSent world client.outgoing invocation).map fun served =>
        (conclude req rc .zero, served.world)

/-- `send_corrupt_crc` against the server. -/
def sendCorruptCrc (world : World) (invocation : Invocation) : Option (Finished × World) :=
  match corruptFrame with
  | none => (serveSent world [] invocation).map fun served => (⟨1, [], []⟩, served.world)
  | some frame =>
      let (rc, client) := writeAll ⟨[], [], [], invocation.clientWrites, []⟩ frame
      (serveSent world client.outgoing invocation).map fun served =>
        (if rc = .ok then
            ⟨0, asciiBytes "Injected protocol fault: corrupted CRC frame sent\n", []⟩
          else ⟨1, [], []⟩,
          served.world)

/-- One process while the server, and no other, listens on a path. -/
def invoke (listening : Bytes) (world : World) (invocation : Invocation) :
    Option (Finished × World) :=
  match commandLine invocation.args with
  | .exits result => some (result, world)
  | .runs path command =>
      if path.length ≥ sunPath ∨ path ≠ listening then some (⟨1, [], []⟩, world)
      else
        match command with
        | .corruptCrc => sendCorruptCrc world invocation
        | command => transactWith world command.request invocation

end EmbeddedRuntime.Target.Client
