import EmbeddedRuntime.Bmc.Host
import EmbeddedRuntime.Bmc.Model

/-!
# `ManagementHandler` of `bmc.py`

One request after another is handled on the management state and the host.  A
request makes at most one call of the host agent; what comes of it is given with
the request.
-/

set_option autoImplicit false

namespace EmbeddedRuntime.Bmc.Handler

open EmbeddedRuntime.Bmc.Python
open EmbeddedRuntime.Bmc.Host (HostState)
open EmbeddedRuntime.Bmc.Model

def root : String := "/redfish/v1"
def bmc : String := root ++ "/Managers/BMC"
def host : String := root ++ "/Systems/Host"
def eth : String := bmc ++ "/EthernetInterfaces/eth0"
def eventEntries : String := host ++ "/LogServices/EventLog/Entries"
def hostReset : String := host ++ "/Actions/ComputerSystem.Reset"
def bmcReset : String := bmc ++ "/Actions/Manager.Reset"

/-- The secrets of the two services. -/
structure Server where
  adminToken : String
  viewerToken : String
  agentKey : String
  hostKey : String

structure System where
  model : Model
  host : HostState

def System.fresh : System := { model := Model.fresh, host := HostState.fresh }

/-- The fate of a call of the agent: the response of the agent arrives, or an exception ends the
call, after the agent handled it or before. -/
inductive Exchange where
  | arrives
  | fails (handled : Bool) (error : Raised)

/-- A request with all it meets outside. -/
structure Turn where
  request : Request
  exchange : Exchange
  library : Library

/-! ## Roles -/

inductive Role where
  | admin
  | viewer
  deriving DecidableEq, Repr

def bearer : String := "Bearer "

def role (server : Server) (request : Request) : Except Raised (Option Role) := do
  let header := (request.headers "Authorization").getD ""
  if !bearer.toList.isPrefixOf header.toList then return none
  let token := String.ofList (header.toList.drop bearer.toList.length)
  if ← compareDigest token server.adminToken then return some .admin
  if ← compareDigest token server.viewerToken then return some .viewer
  return none

/-- `authorize`: the refusal, if there is one. -/
def authorize (server : Server) (request : Request) (write : Bool) :
    Except Raised (Option Answer) := do
  match ← role server request with
  | none => return some (refuse 401 "Valid bearer token required")
  | some role =>
      if write && decide (role ≠ .admin) then return some (refuse 403 "Admin role required")
      else return none

/-! ## The agent -/

/-- The exceptions that `agent` catches: `URLError`, `HTTPError`, `OSError` and
`JSONDecodeError`. -/
def caught (error : Raised) : Bool :=
  decide (error.kind = .osError) || decide (error.kind = .jsonDecodeError)

/-- The request that `agent` makes. -/
def agentRequest (server : Server) (library : Library) (path : String) (body : Option Json) :
    Request :=
  let data := body.map library.dumps
  { method := if data.isSome then "POST" else "GET"
    path
    headers := fun name =>
      if name = "X-Agent-Key" then some server.agentKey
      else if name = "Content-Type" then data.map fun _ => "application/json"
      else if name = "Content-Length" then data.map fun bytes => toString bytes.length
      else none
    body := data.getD [] }

/-- What `agent` makes of the response; `urlopen` raises for every other status. -/
def readResponse (library : Library) : Answer → Except Raised Json
  | .respond 200 body =>
      match library.loads (library.dumps body) with
      | .ok value => .ok value
      | .error error => if caught error then .ok .null else .error error
  | _ => .ok .null

def agent (server : Server) (turn : Turn) (path : String) (body : Option Json)
    (state : HostState) : Except Raised Json × HostState :=
  let handled :=
    Host.handle server.hostKey turn.library (agentRequest server turn.library path body) state
  match turn.exchange with
  | .arrives => (readResponse turn.library handled.1, handled.2)
  | .fails reached error =>
      (if caught error then .ok .null else .error error, if reached then handled.2 else state)

/-! ## Bodies -/

def readJson (library : Library) (request : Request) : Except Raised Dict :=
  if strip (beforeSemicolon ((request.headers "Content-Type").getD "")) ≠
      "application/json".toList then
    valueError "application/json required"
  else
    match library.parseInt ((request.headers "Content-Length").getD "0") with
    | none => valueError "Invalid content length"
    | some length =>
        if length < 1 ∨ length > 4096 then valueError "JSON payload must be 1..4096 bytes"
        else
          match library.loads (request.body.take length.toNat) with
          | .error error =>
              if error.kind.isValueError then valueError "Malformed JSON" else .error error
          | .ok (.dict entries) => .ok entries
          | .ok _ => valueError "JSON object required"

/-- The `try` block of `do_POST`. -/
def readReset (library : Library) (request : Request) : Except Raised String :=
  match readJson library request with
  | .error error => .error error
  | .ok body =>
      match if hasKeys body ["ResetType"] then (item body "ResetType").bind Json.str? else none with
      | none => valueError "ResetType must be a string"
      | some reset =>
          if request.path = hostReset ∧ reset ∉ ["ForceRestart", "ForceOff", "On"] then
            valueError "Unsupported host reset type"
          else if request.path = bmcReset ∧ reset ≠ "GracefulRestart" then
            valueError "Unsupported BMC reset type"
          else .ok reset

/-- `except ValueError`. -/
def badRequest (error : Raised) : Answer :=
  if error.kind.isValueError then refuse 400 error.text else .raised error

/-! ## Methods -/

def link (path : String) : Json := .dict [("@odata.id", .str path)]

def doGet (server : Server) (turn : Turn) (system : System) : Answer × System :=
  let request := turn.request
  let model := system.model
  match authorize server request false with
  | .error error => (.raised error, system)
  | .ok (some refusal) => (refusal, system)
  | .ok none =>
      if request.path = root then
        (.respond 200 (.dict [("Managers", link bmc), ("Systems", link host)]), system)
      else if request.path = bmc then
        (.respond 200 (.dict [("Id", .str "BMC"), ("Name", .str "Lab Management Controller"),
          ("Generation", .int model.generation), ("FirmwareVersion", .str "lab-1.0"),
          ("EthernetInterfaces", link eth)]), system)
      else if request.path = host then
        let called := agent server turn "/internal/state" none system.host
        let system := { system with host := called.2 }
        match called.1 with
        | .error error => (.raised error, system)
        | .ok .null => (refuse 503 "Host agent unavailable", system)
        | .ok (.dict result) =>
            (.respond 200 (.dict ([("Id", .str "Host")] ++ result ++
              [("Actions", .dict [("#ComputerSystem.Reset",
                .dict [("target", .str hostReset)])])])), system)
        | .ok _ => (.raised ⟨.typeError, "argument after ** must be a mapping"⟩, system)
      else if request.path = eth then
        (.respond 200 (.dict [("Id", .str "eth0"), ("IPv4", model.network.json),
          ("LinkStatus", .str "Up")]), system)
      else if request.path = eventEntries then
        (.respond 200 (.dict [("Members@odata.count", .int model.logs.length),
          ("Members", .list (model.logs.map Event.json))]), system)
      else (refuse 404 "Unknown resource", system)

def doPatch (server : Server) (turn : Turn) (system : System) : Answer × System :=
  let request := turn.request
  match authorize server request true with
  | .error error => (.raised error, system)
  | .ok (some refusal) => (refusal, system)
  | .ok none =>
      if request.path ≠ eth then (refuse 404 "Unknown resource", system)
      else
        match readJson turn.library request with
        | .error error => (badRequest error, system)
        | .ok body =>
            match system.model.setNetwork turn.library (.dict body) with
            | .error error => (badRequest error, system)
            | .ok model =>
                (.respond 200 (.dict [("Id", .str "eth0"), ("IPv4", model.network.json)]),
                  { system with model })

def hostMessage (reset : String) : String := "Host reset action: " ++ reset

def bmcMessage : String := "BMC management service restarted"

/-- The last part of `do_POST`: a reset that was read. -/
def doReset (server : Server) (turn : Turn) (reset : String) (system : System) :
    Answer × System :=
  if turn.request.path = hostReset then
    let called :=
      agent server turn "/internal/reset" (some (.dict [("ResetType", .str reset)])) system.host
    let system := { system with host := called.2 }
    match called.1 with
    | .error error => (.raised error, system)
    | .ok response =>
        if response.isNone then (refuse 503 "Host agent unavailable", system)
        else (.respond 200 response, { system with model := system.model.event (hostMessage reset) })
  else
    let restarted := { system.model with generation := system.model.generation + 1 }
    (.respond 200 (.dict [("Generation", .int restarted.generation), ("Status", .str "OK")]),
      { system with model := restarted.event bmcMessage })

def labReset : String := "/_lab/reset"

def doPost (server : Server) (turn : Turn) (system : System) : Answer × System :=
  let request := turn.request
  match authorize server request true with
  | .error error => (.raised error, system)
  | .ok (some refusal) => (refusal, system)
  | .ok none =>
      if request.path = labReset then
        let called := agent server turn "/internal/fixture-reset" (some (.dict [])) system.host
        let system := { system with host := called.2 }
        match called.1 with
        | .error error => (.raised error, system)
        | .ok response =>
            if response.isNone then (refuse 503 "Host agent unavailable", system)
            else (.respond 200 (.dict [("status", .str "reset")]),
              { system with model := Model.fresh })
      else if request.path ∉ [hostReset, bmcReset] then (refuse 404 "Unknown action", system)
      else
        match readReset turn.library request with
        | .error error => (badRequest error, system)
        | .ok reset => doReset server turn reset system

/-- The handler: one method after the name of each request. -/
def handle (server : Server) (turn : Turn) (system : System) : Answer × System :=
  if turn.request.method = "GET" then doGet server turn system
  else if turn.request.method = "PATCH" then doPatch server turn system
  else if turn.request.method = "POST" then doPost server turn system
  else (.unsupported, system)

end EmbeddedRuntime.Bmc.Handler
