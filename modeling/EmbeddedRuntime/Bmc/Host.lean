import EmbeddedRuntime.Bmc.Python

/-!
# The host agent of `host_agent.py`

The power state of the host and the service through which it is changed.
-/

set_option autoImplicit false

namespace EmbeddedRuntime.Bmc.Host

open EmbeddedRuntime.Bmc.Python

inductive Power where
  | on
  | off
  deriving DecidableEq, Repr

def Power.text : Power → String
  | .on => "On"
  | .off => "Off"

structure HostState where
  power : Power
  boots : Nat
  deriving DecidableEq, Repr

def HostState.fresh : HostState := { power := .on, boots := 1 }

def HostState.snapshot (state : HostState) : Json :=
  .dict [("PowerState", .str state.power.text), ("BootCount", .int state.boots)]

def HostState.reset (state : HostState) (resetType : Json) : Except Raised HostState :=
  match resetType with
  | .str "On" =>
      .ok { power := .on, boots := if state.power = .off then state.boots + 1 else state.boots }
  | .str "ForceOff" => .ok { state with power := .off }
  | .str "ForceRestart" => .ok { power := .on, boots := state.boots + 1 }
  | _ => valueError "Unsupported ResetType"

/-- `authenticate`: the refusal, if there is one. -/
def authenticate (agentKey : String) (request : Request) : Except Raised (Option Answer) :=
  match compareDigest ((request.headers "X-Agent-Key").getD "") agentKey with
  | .error error => .error error
  | .ok true => .ok none
  | .ok false => .ok (some (refuse 403 "Internal management access denied"))

def doGet (agentKey : String) (request : Request) (state : HostState) : Answer :=
  match authenticate agentKey request with
  | .error error => .raised error
  | .ok (some refusal) => refusal
  | .ok none =>
      if request.path = "/internal/state" then .respond 200 state.snapshot
      else refuse 404 "Not Found"

/-- The `try` block of `do_POST`. -/
def readReset (library : Library) (request : Request) (state : HostState) :
    Except Raised HostState :=
  match library.parseInt ((request.headers "Content-Length").getD "0") with
  | none => valueError "invalid literal for int()"
  | some length =>
      if length > 1024 ∨ length < 1 then valueError "Invalid body size"
      else
        match library.loads (request.body.take length.toNat) with
        | .error error => .error error
        | .ok (.dict entries) =>
            if hasKeys entries ["ResetType"] then
              match item entries "ResetType" with
              | none => .error ⟨.keyError, "'ResetType'"⟩
              | some resetType => state.reset resetType
            else valueError "Expected ResetType"
        | .ok _ => valueError "Expected ResetType"

def doPost (agentKey : String) (library : Library) (request : Request) (state : HostState) :
    Answer × HostState :=
  match authenticate agentKey request with
  | .error error => (.raised error, state)
  | .ok (some refusal) => (refusal, state)
  | .ok none =>
      if request.path = "/internal/fixture-reset" then
        (.respond 200 (.dict [("status", .str "reset")]), HostState.fresh)
      else if request.path ≠ "/internal/reset" then (refuse 404 "Not Found", state)
      else if beforeSemicolon ((request.headers "Content-Type").getD "") ≠
          "application/json".toList then
        (refuse 415 "JSON required", state)
      else
        match readReset library request state with
        | .ok next => (.respond 200 next.snapshot, next)
        | .error error =>
            if error.kind.isValueError ∨ error.kind = .typeError then
              (refuse 400 "Invalid reset request", state)
            else (.raised error, state)

/-- The handler of the agent. -/
def handle (agentKey : String) (library : Library) (request : Request) (state : HostState) :
    Answer × HostState :=
  if request.method = "GET" then (doGet agentKey request state, state)
  else if request.method = "POST" then doPost agentKey library request state
  else (.unsupported, state)

end EmbeddedRuntime.Bmc.Host
