import EmbeddedRuntime.Bmc.Handler
import EmbeddedRuntime.Lib.Machine
import Mathlib.Data.List.DropRight

/-!
# The event log is the history of the successful changes

What an observer notes of the requests and their answers determines the event
log and the generation.  Requests without the admin token change nothing.
-/

set_option autoImplicit false

namespace EmbeddedRuntime.Bmc.Audit

open EmbeddedRuntime.Lib.Machine
open EmbeddedRuntime.Bmc.Python
open EmbeddedRuntime.Bmc.Host (HostState)
open EmbeddedRuntime.Bmc.Model
open EmbeddedRuntime.Bmc.Handler

/-! ## Requests without the admin token -/

def IsAdmin (server : Server) (request : Request) : Prop :=
  request.headers "Authorization" = some ("Bearer " ++ server.adminToken)

theorem compareDigest_true {first second : String} (same : compareDigest first second = .ok true) :
    first = second := by
  unfold compareDigest at same
  split_ifs at same
  simpa using same

theorem role_admin {server : Server} {request : Request}
    (admin : role server request = .ok (some .admin)) : IsAdmin server request := by
  unfold role at admin
  simp only [bind, Except.bind, pure, Except.pure] at admin
  split_ifs at admin with other
  · cases admin
  have begins : bearer.toList <+: ((request.headers "Authorization").getD "").toList := by
    rw [← List.isPrefixOf_iff_prefix]
    simpa using other
  cases compared : compareDigest (String.ofList
      (((request.headers "Authorization").getD "").toList.drop bearer.toList.length))
      server.adminToken with
  | error error =>
      rw [compared] at admin
      cases admin
  | ok equal =>
      cases equal with
      | true =>
          have header : (request.headers "Authorization").getD "" = bearer ++ server.adminToken := by
            rw [← String.toList_inj, String.toList_append, ← compareDigest_true compared,
              String.toList_ofList, List.prefix_iff_eq_append.mp begins]
          cases given : request.headers "Authorization" with
          | none =>
              rw [given] at begins
              exact absurd (List.prefix_nil.mp begins) (by decide)
          | some text =>
              rw [given] at header
              rw [IsAdmin, given]
              exact congrArg some header
      | false =>
          rw [compared] at admin
          simp only [Bool.false_eq_true, if_false] at admin
          split at admin
          · cases admin
          · split_ifs at admin <;> cases admin

theorem authorize_write {server : Server} {request : Request}
    (allowed : authorize server request true = .ok none) : IsAdmin server request := by
  apply role_admin
  unfold authorize at allowed
  cases given : role server request with
  | error error =>
      rw [given] at allowed
      cases allowed
  | ok found =>
      rw [given] at allowed
      cases found with
      | none => cases allowed
      | some found =>
          cases found with
          | admin => rfl
          | viewer => cases allowed

/-- Reading the state of the host does not change it. -/
theorem agent_get (server : Server) (turn : Turn) (path : String) (state : HostState) :
    (agent server turn path none state).2 = state := by
  unfold agent
  cases turn.exchange with
  | arrives => rfl
  | fails reached error => cases reached <;> rfl

/-- `do_GET` changes nothing, for any role. -/
theorem doGet_keeps (server : Server) (turn : Turn) (system : System) :
    (doGet server turn system).2 = system := by
  unfold doGet
  simp only [agent_get]
  repeat' split
  all_goals rfl

theorem doPatch_keeps {server : Server} {turn : Turn} (system : System)
    (other : ¬ IsAdmin server turn.request) : (doPatch server turn system).2 = system := by
  unfold doPatch
  dsimp only
  split
  · rfl
  · rfl
  · next allowed => exact absurd (authorize_write allowed) other

theorem doPost_keeps {server : Server} {turn : Turn} (system : System)
    (other : ¬ IsAdmin server turn.request) : (doPost server turn system).2 = system := by
  unfold doPost
  dsimp only
  split
  · rfl
  · rfl
  · next allowed => exact absurd (authorize_write allowed) other

theorem handle_keeps {server : Server} {turn : Turn} (system : System)
    (other : ¬ IsAdmin server turn.request) : (handle server turn system).2 = system := by
  unfold handle
  split_ifs
  · exact doGet_keeps server turn system
  · exact doPatch_keeps system other
  · exact doPost_keeps system other
  · rfl

/-! ## What an observer notes -/

inductive Noted where
  | nothing
  | cleared
  | event (message : String) (restart : Bool)
  deriving DecidableEq, Repr

/-- What a request and its answer tell: an accepted update of the interface, a reset of the host
to which the agent responded, a restart of the service or a reset of the laboratory. -/
def noted (turn : Turn) (answer : Answer) : Noted :=
  let request := turn.request
  if answer.status ≠ some 200 then .nothing
  else if request.method = "PATCH" ∧ request.path = eth then .event networkMessage false
  else if request.method = "POST" ∧ request.path = labReset then .cleared
  else if request.method = "POST" ∧ request.path = hostReset then
    match readReset turn.library request with
    | .ok reset => .event (hostMessage reset) false
    | .error _ => .nothing
  else if request.method = "POST" ∧ request.path = bmcReset then .event bmcMessage true
  else .nothing

/-- The messages and restarts noted since the laboratory was reset. -/
structure History where
  messages : List String
  restarts : Nat
  deriving DecidableEq, Repr

def History.empty : History := { messages := [], restarts := 0 }

def History.note (history : History) : Noted → History
  | .nothing => history
  | .cleared => .empty
  | .event message restart =>
      { messages := history.messages ++ [message]
        restarts := history.restarts + if restart then 1 else 0 }

/-- The events of a history, with consecutive ids from 1 on. -/
def History.events (history : History) : List Event :=
  history.messages.mapIdx fun index message =>
    { id := toString (index + 1), message, severity := "OK" }

/-- The last items of a list. -/
def newest {α : Type} (limit : Nat) (items : List α) : List α := items.rtake limit

/-! ## The change a note stands for -/

def Follows (note : Noted) (model next : Model) : Prop :=
  match note with
  | .nothing => next = model
  | .cleared => next = Model.fresh
  | .event message restart =>
      ∃ network, next =
        { model with
          generation := model.generation + if restart then 1 else 0
          network }.event message

theorem noted_of_status {turn : Turn} {answer : Answer} (failed : answer.status ≠ some 200) :
    noted turn answer = .nothing := by
  unfold noted
  exact if_pos failed

theorem badRequest_status (error : Raised) : (badRequest error).status ≠ some 200 := by
  unfold badRequest
  split_ifs
  · exact of_decide_eq_true rfl
  · exact of_decide_eq_true rfl

section Steps
variable {server : Server} {turn : Turn} {system : System}

/-- A refused or failed request is noted as nothing; it has to leave the model. -/
theorem follows_failed {answer : Answer} {model : Model} (failed : answer.status ≠ some 200) :
    Follows (noted turn answer) model model := by
  rw [noted_of_status failed]
  rfl

theorem authorize_status {write : Bool} {refusal : Answer} {request : Request}
    (refused : authorize server request write = .ok (some refusal)) :
    refusal.status ≠ some 200 := by
  unfold authorize at refused
  cases given : role server request with
  | error error =>
      rw [given] at refused
      cases refused
  | ok found =>
      rw [given] at refused
      simp only [bind, Except.bind, pure, Except.pure] at refused
      split at refused
      · cases refused
        exact of_decide_eq_true rfl
      · split_ifs at refused
        · cases refused
          exact of_decide_eq_true rfl
        · cases refused

theorem setNetwork_eq {library : Library} {model next : Model} {config : Json}
    (accepted : model.setNetwork library config = .ok next) :
    ∃ network, next = { model with network }.event networkMessage := by
  unfold Model.setNetwork at accepted
  split at accepted
  · cases accepted
  · next network checked =>
      cases accepted
      exact ⟨network, rfl⟩

theorem doPatch_follows (method : turn.request.method = "PATCH") :
    Follows (noted turn (doPatch server turn system).1) system.model
      (doPatch server turn system).2.model := by
  unfold doPatch
  dsimp only
  split
  · exact follows_failed (of_decide_eq_true rfl)
  · next refused => exact follows_failed (authorize_status refused)
  · split_ifs with elsewhere
    · exact follows_failed (of_decide_eq_true rfl)
    · split
      · exact follows_failed (badRequest_status _)
      · split
        · exact follows_failed (badRequest_status _)
        · next next accepted =>
            obtain ⟨network, same⟩ := setNetwork_eq accepted
            have note : noted turn (.respond 200
                (.dict [("Id", .str "eth0"), ("IPv4", next.network.json)])) =
                .event networkMessage false := by
              simp [noted, Answer.status, method, not_not.mp elsewhere]
            rw [note]
            exact ⟨network, same⟩

theorem paths_distinct :
    hostReset ≠ labReset ∧ bmcReset ≠ labReset ∧ bmcReset ≠ hostReset := by
  simp [hostReset, labReset, bmcReset, bmc, host, root]

theorem doReset_follows (method : turn.request.method = "POST") {reset : String}
    (here : turn.request.path = hostReset ∨ turn.request.path = bmcReset)
    (read : readReset turn.library turn.request = .ok reset) :
    Follows (noted turn (doReset server turn reset system).1) system.model
      (doReset server turn reset system).2.model := by
  obtain ⟨hostLab, bmcLab, bmcHost⟩ := paths_distinct
  unfold doReset
  dsimp only
  split_ifs with atHost
  · split
    · exact follows_failed (of_decide_eq_true rfl)
    · next response called =>
        split_ifs
        · exact follows_failed (of_decide_eq_true rfl)
        · have note : noted turn (.respond 200 response) = .event (hostMessage reset) false := by
            simp [noted, Answer.status, method, atHost, hostLab, read]
          rw [note]
          exact ⟨system.model.network, rfl⟩
  · have atBmc : turn.request.path = bmcReset := here.resolve_left atHost
    have note (body : Json) : noted turn (.respond 200 body) = .event bmcMessage true := by
      simp [noted, Answer.status, method, atBmc, bmcLab, bmcHost]
    rw [note]
    exact ⟨system.model.network, rfl⟩

theorem doPost_follows (method : turn.request.method = "POST") :
    Follows (noted turn (doPost server turn system).1) system.model
      (doPost server turn system).2.model := by
  unfold doPost
  dsimp only
  split
  · exact follows_failed (of_decide_eq_true rfl)
  · next refused => exact follows_failed (authorize_status refused)
  · split_ifs with atLab elsewhere
    · split
      · exact follows_failed (of_decide_eq_true rfl)
      · next response called =>
          split_ifs
          · exact follows_failed (of_decide_eq_true rfl)
          · have note (body : Json) : noted turn (.respond 200 body) = .cleared := by
              simp [noted, Answer.status, method, atLab]
            rw [note]
            rfl
    · split
      · exact follows_failed (badRequest_status _)
      · next reset read =>
          have here : turn.request.path = hostReset ∨ turn.request.path = bmcReset := by
            simpa using elsewhere
          exact doReset_follows method here read
    · exact follows_failed (of_decide_eq_true rfl)

theorem handle_follows :
    Follows (noted turn (handle server turn system).1) system.model
      (handle server turn system).2.model := by
  unfold handle
  split_ifs with get patch post
  · have note : noted turn (doGet server turn system).1 = .nothing := by
      simp [noted, get]
    rw [note, doGet_keeps]
    rfl
  · exact doPatch_follows patch
  · exact doPost_follows post
  · exact follows_failed (of_decide_eq_true rfl)

end Steps

/-! ## The log of a whole run -/

/-- The log and the generation are those of the history. -/
structure Audited (history : History) (model : Model) : Prop where
  events : model.events = newest logLimit history.events
  generation : model.generation = 1 + history.restarts
  sequence : model.sequence = history.messages.length

theorem fresh_audited : Audited .empty Model.fresh := ⟨rfl, rfl, rfl⟩

theorem newest_append {α : Type} (limit : Nat) (items : List α) (item : α) :
    append limit (newest limit items) item = newest limit (items ++ [item]) := by
  have short : items.length - limit ≤ items.length := Nat.sub_le _ _
  rw [append, newest, newest, List.rtake, List.rtake, ← List.drop_append_of_le_length short,
    List.drop_drop, List.length_drop, List.length_append, List.length_singleton]
  congr 1
  omega

theorem event_audited {history : History} {model : Model} (audited : Audited history model)
    (network : Network) (message : String) (restart : Bool) :
    Audited (history.note (.event message restart))
      ({ model with
        generation := model.generation + if restart then 1 else 0
        network }.event message) := by
  refine ⟨?_, ?_, ?_⟩
  · simp only [Model.event, audited.events, newest_append, History.events, History.note,
      List.mapIdx_concat, audited.sequence]
  · simp only [Model.event, audited.generation, History.note, Nat.add_assoc]
  · simp only [Model.event, audited.sequence, History.note, List.length_append,
      List.length_singleton]

/-- One change keeps the log that of the history. -/
theorem follows_audited {history : History} {note : Noted} {model next : Model}
    (audited : Audited history model) (follows : Follows note model next) :
    Audited (history.note note) next := by
  cases note with
  | nothing =>
      obtain rfl := follows
      exact audited
  | cleared =>
      obtain rfl := follows
      exact fresh_audited
  | event message restart =>
      obtain ⟨network, rfl⟩ := follows
      exact event_audited audited network message restart

/-- A turn, watched by an observer who sees the requests and the answers. -/
def watch (server : Server) (watched : System × History) (turn : Turn) : System × History :=
  let handled := handle server turn watched.1
  (handled.2, watched.2.note (noted turn handled.1))

/-- Whatever requests are handled: without the admin token nothing changes, and the log is the
last part of the history since the laboratory was reset. -/
theorem management_state_audited (server : Server) (turns : List Turn) :
    let watched := run (watch server) (System.fresh, .empty) turns
    (∀ turn, ¬ IsAdmin server turn.request → (handle server turn watched.1).2 = watched.1) ∧
      watched.1.model.events = newest 128 watched.2.events ∧
      watched.1.model.generation = 1 + watched.2.restarts := by
  have audited : Audited (run (watch server) (System.fresh, .empty) turns).2
      (run (watch server) (System.fresh, .empty) turns).1.model := by
    apply run_invariant (fun watched : System × History => Audited watched.2 watched.1.model)
      _ _ turns fresh_audited (admits_true (watch server) _ turns)
    intro watched turn audited _
    exact follows_audited audited handle_follows
  exact ⟨fun turn other => handle_keeps _ other, audited.events, audited.generation⟩

def lab : Server :=
  { adminToken := "admin-secret", viewerToken := "viewer-secret", agentKey := "agent-secret"
    hostKey := "agent-secret" }

/-- A request to restart the service, with the one body that the library reads. -/
def restart (token : String) : Turn where
  request :=
    { method := "POST", path := bmcReset, body := [0]
      headers := fun name =>
        if name = "Authorization" then some ("Bearer " ++ token)
        else if name = "Content-Type" then some "application/json"
        else if name = "Content-Length" then some "1"
        else none }
  exchange := .arrives
  library :=
    { parseInt := fun text => if text = "1" then some 1 else none
      loads := fun _ => .ok (.dict [("ResetType", .str "GracefulRestart")])
      dumps := fun _ => []
      ipv4Address := fun _ => .error ⟨.addressValueError, "not an address"⟩
      prefixLength := fun _ => .error ⟨.netmaskValueError, "not a mask"⟩ }

def restarted : System × History :=
  run (watch lab) (System.fresh, .empty) [restart "admin-secret"]

/-- The admin restarts the service; the same request of the viewer changes nothing. -/
theorem management_state_audited_restart :
    restarted.1.model.events = [{ id := "1", message := bmcMessage, severity := "OK" }] ∧
      (handle lab (restart "viewer-secret") restarted.1).2 = restarted.1 := by
  have audited := management_state_audited lab [restart "admin-secret"]
  have other : ¬ IsAdmin lab (restart "viewer-secret").request := by
    unfold IsAdmin
    decide +kernel
  have noted : newest 128 restarted.2.events =
      [{ id := "1", message := bmcMessage, severity := "OK" }] := by decide +kernel
  exact ⟨audited.2.1.trans noted, audited.1 (restart "viewer-secret") other⟩

end EmbeddedRuntime.Bmc.Audit
