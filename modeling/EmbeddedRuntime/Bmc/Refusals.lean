import EmbeddedRuntime.Bmc.Audit
import EmbeddedRuntime.Bmc.Network

/-!
# Which updates of the interface are answered

`set_network` turns the exceptions of `ipaddress` into a `ValueError`, and
`do_PATCH` answers those with 400.  A mask that is neither a string nor an
integer and can be looked up in the cache gets through to a method it does not
have; the exception of that is not in the list.
-/

set_option autoImplicit false

namespace EmbeddedRuntime.Bmc.Refusals

open EmbeddedRuntime.Bmc.Python
open EmbeddedRuntime.Bmc.Model
open EmbeddedRuntime.Bmc.Handler
open EmbeddedRuntime.Bmc.Network

/-- A request of the admin to update the Ethernet resource. -/
structure AdminPatch (server : Server) (request : Request) : Prop where
  method : request.method = "PATCH"
  path : request.path = eth
  allowed : authorize server request true = .ok none

/-- The update is answered: with 200 and the new configuration, or with 400 and nothing changed. -/
def Answered (system : System) (result : Answer × System) : Prop :=
  (∃ network, result.1 = .respond 200 (.dict [("Id", .str "eth0"), ("IPv4", network.json)]) ∧
    result.2 = { system with model := { system.model with network }.event networkMessage }) ∨
  ∃ text, result.1 = refuse 400 text ∧ result.2 = system

/-- `set_network` raises nothing but a `ValueError`. -/
def OnlyValueErrors (library : Library) (model : Model) (config : Json) : Prop :=
  ∀ error, model.setNetwork library config = .error error → error.kind.isValueError = true

/-- A mask for which `ipaddress` has no reading and no refusal. -/
def Unreadable (library : Library) : Json → Prop
  | .null => True
  | .float literal => ∀ length, library.prefixLength (.float literal) ≠ .ok length
  | _ => False

/-- Everything that is checked before the mask is in order. -/
def ReachesMask (library : Library) (config mask : Json) : Prop :=
  ∃ address gateway vlan, Config config address mask gateway vlan ∧
    (∃ parsed, library.ipv4Address address = .ok parsed) ∧
      ∃ parsed, library.ipv4Address gateway = .ok parsed

/-- The body is read, or refused with a `ValueError`. -/
def BodyRead (library : Library) (request : Request) : Prop :=
  ∀ error, readJson library request = .error error → error.kind.isValueError = true

/-! ## `set_network` -/

theorem config_unique {config address mask gateway address' mask' gateway' : Json} {vlan vlan' : Int}
    (first : Config config address mask gateway vlan)
    (second : Config config address' mask' gateway' vlan') :
    address = address' ∧ mask = mask' ∧ gateway = gateway' := by
  obtain ⟨⟨entries, fields, rfl, -, ipv4, -, -, isAddress, isMask, isGateway⟩, -⟩ := first
  obtain ⟨⟨_, fields', same, -, ipv4', -, -, isAddress', isMask', isGateway'⟩, -⟩ := second
  cases same
  cases ipv4.symm.trans ipv4'
  exact ⟨Option.some.inj (isAddress.symm.trans isAddress'),
    Option.some.inj (isMask.symm.trans isMask'), Option.some.inj (isGateway.symm.trans isGateway')⟩

section Check
variable {library : Library} {address mask gateway : Json}

/-- The exceptions of the `try` block. -/
theorem topologyOf_error {error : Raised}
    (failed : topologyOf library address mask gateway = .error error) :
    library.ipv4Address address = .error error ∨ library.ipv4Address gateway = .error error ∨
      ((∃ parsed, library.ipv4Address address = .ok parsed) ∧
        (∃ parsed, library.ipv4Address gateway = .ok parsed) ∧
        library.prefixLength mask = .error error) ∨
      error.kind = .valueError := by
  unfold topologyOf at failed
  cases first : library.ipv4Address address with
  | error error' =>
      rw [first] at failed
      cases failed
      exact Or.inl rfl
  | ok parsed =>
      cases second : library.ipv4Address gateway with
      | error error' =>
          rw [first, second] at failed
          cases failed
          exact Or.inr (Or.inl rfl)
      | ok parsed' =>
          cases third : library.prefixLength mask with
          | error error' =>
              rw [first, second, third] at failed
              cases failed
              exact Or.inr (Or.inr (Or.inl ⟨⟨parsed, rfl⟩, ⟨parsed', rfl⟩, rfl⟩))
          | ok length =>
              rw [first, second, third] at failed
              simp only [bind, Except.bind, pure, Except.pure] at failed
              split at failed
              · cases failed
                exact Or.inr (Or.inr (Or.inr rfl))
              · cases failed

theorem topologyOf_mask {parsed parsed' : Address} {error : Raised}
    (first : library.ipv4Address address = .ok parsed)
    (second : library.ipv4Address gateway = .ok parsed')
    (third : library.prefixLength mask = .error error) :
    topologyOf library address mask gateway = .error error := by
  simp only [topologyOf, first, second, third]
  rfl

/-- What a mask without a reading raises. -/
theorem unreadable_iff (documented : Documented library) (mask : Json) :
    Unreadable library mask ↔
      ∃ error, library.prefixLength mask = .error error ∧ error.kind = .attributeError := by
  have raises : (∀ length, library.prefixLength mask ≠ .ok length) →
      ∃ error, library.prefixLength mask = .error error ∧ error.kind = maskError mask := by
    intro none
    cases result : library.prefixLength mask with
    | ok length => exact absurd result (none length)
    | error error => exact ⟨error, rfl, documented.maskError mask error result⟩
  have only {error : Raised} (failed : library.prefixLength mask = .error error) :
      error.kind = maskError mask := documented.maskError mask error failed
  cases mask with
  | null =>
      refine iff_of_true trivial (raises fun length accepted => ?_)
      cases documented.mask .null length accepted
  | float literal =>
      refine ⟨raises, ?_⟩
      rintro ⟨error, failed, -⟩ length accepted
      rw [failed] at accepted
      cases accepted
  | bool | int | str | list | dict =>
      refine iff_of_false id ?_
      rintro ⟨error, failed, isAttribute⟩
      rw [only failed] at isAttribute
      cases isAttribute

theorem checkNetwork_onlyValueErrors_iff (documented : Documented library) (config : Json) :
    (∀ error, checkNetwork library config = .error error → error.kind.isValueError = true) ↔
      ¬ ∃ mask, ReachesMask library config mask ∧ Unreadable library mask := by
  constructor
  · rintro only ⟨mask, ⟨address, gateway, vlan, given, ⟨parsed, first⟩, parsed', second⟩, unread⟩
    obtain ⟨error, third, isAttribute⟩ := (unreadable_iff documented mask).mp unread
    have raised : checkNetwork library config = .error error := by
      simp only [checkNetwork_config library given, topologyOf_mask first second third, isAttribute,
        Kind.invalidSubnet, Bool.false_eq_true, if_false]
    have isValue := only error raised
    rw [isAttribute] at isValue
    cases isValue
  · intro readable error raised
    rcases config_or_refused library config with ⟨address, mask, gateway, vlan, given⟩ | ⟨text, refused⟩
    · rw [checkNetwork_config library given] at raised
      cases checked : topologyOf library address mask gateway with
      | ok result =>
          rw [checked] at raised
          cases raised
      | error error' =>
          rw [checked] at raised
          simp only at raised
          split_ifs at raised with caught
          · cases raised
            rfl
          · cases raised
            rcases topologyOf_error checked with first | second | ⟨first, second, third⟩ | isValue
            · rw [documented.addressError address error first] at caught
              exact absurd rfl caught
            · rw [documented.addressError gateway error second] at caught
              exact absurd rfl caught
            · have kind := documented.maskError mask error third
              by_cases isAttribute : error.kind = .attributeError
              · exact absurd ⟨mask, ⟨address, gateway, vlan, given, first, second⟩,
                  (unreadable_iff documented mask).mpr ⟨error, third, isAttribute⟩⟩ readable
              · rw [kind] at caught isAttribute
                cases mask <;> first | exact absurd rfl caught | exact absurd rfl isAttribute
            · rw [isValue]
              rfl
    · rw [refused] at raised
      cases raised
      rfl

theorem setNetwork_error_iff {model : Model} {config : Json} {error : Raised} :
    model.setNetwork library config = .error error ↔ checkNetwork library config = .error error := by
  unfold Model.setNetwork
  cases checkNetwork library config <;> simp

end Check

/-! ## The request -/

theorem Answered.status {system : System} {result : Answer × System}
    (answered : Answered system result) :
    result.1.status = some 200 ∨ result.1.status = some 400 := by
  rcases answered with ⟨network, same, -⟩ | ⟨text, same, -⟩
  · rw [same]
    exact Or.inl rfl
  · rw [same]
    exact Or.inr rfl

theorem badRequest_answered_iff (system : System) (error : Raised) :
    Answered system (badRequest error, system) ↔ error.kind.isValueError = true := by
  unfold badRequest
  constructor
  · intro answered
    by_contra other
    rw [if_neg other] at answered
    rcases answered.status with same | same <;> cases same
  · intro isValue
    rw [if_pos isValue]
    exact Or.inr ⟨error.text, rfl, rfl⟩

section Patch
variable {server : Server} {turn : Turn} (system : System)
  (patch : AdminPatch server turn.request)
include patch

theorem handle_patch :
    handle server turn system =
      match readJson turn.library turn.request with
      | .error error => (badRequest error, system)
      | .ok body =>
          match system.model.setNetwork turn.library (.dict body) with
          | .error error => (badRequest error, system)
          | .ok model =>
              (.respond 200 (.dict [("Id", .str "eth0"), ("IPv4", model.network.json)]),
                { system with model }) := by
  have notGet : ¬ turn.request.method = "GET" := by
    rw [patch.method]
    decide
  rw [handle, if_neg notGet, if_pos patch.method]
  cases read : readJson turn.library turn.request with
  | error error =>
    simp only [doPatch, patch.allowed, patch.path, ne_eq, not_true_eq_false, if_false, read]
  | ok body =>
    cases set : system.model.setNetwork turn.library (.dict body) with
    | error error =>
      simp only [doPatch, patch.allowed, patch.path, ne_eq, not_true_eq_false, if_false, read, set]
    | ok model =>
      simp only [doPatch, patch.allowed, patch.path, ne_eq, not_true_eq_false, if_false, read, set]

/-- An update is answered when its body is read and `set_network` raises no other exception. -/
theorem answered_iff_raises :
    Answered system (handle server turn system) ↔
      BodyRead turn.library turn.request ∧
        ∀ body, readJson turn.library turn.request = .ok body →
          OnlyValueErrors turn.library system.model (.dict body) := by
  rw [handle_patch system patch, BodyRead]
  cases read : readJson turn.library turn.request with
  | error error =>
      simp only
      rw [badRequest_answered_iff]
      constructor
      · intro isValue
        refine ⟨fun error' same => ?_, fun body absurd => by cases absurd⟩
        cases same
        exact isValue
      · exact fun both => both.1 error rfl
  | ok body =>
      simp only
      cases accepted : system.model.setNetwork turn.library (.dict body) with
      | ok model =>
          have noErrors : OnlyValueErrors turn.library system.model (.dict body) := by
            intro error raised
            rw [accepted] at raised
            cases raised
          obtain ⟨network, rfl⟩ := Audit.setNetwork_eq accepted
          refine iff_of_true (Or.inl ⟨network, rfl, rfl⟩) ⟨nofun, fun body' same => ?_⟩
          cases same
          exact noErrors
      | error error =>
          simp only
          rw [badRequest_answered_iff]
          constructor
          · intro isValue
            refine ⟨nofun, fun body' same error' raised => ?_⟩
            cases same
            rw [accepted] at raised
            cases raised
            exact isValue
          · exact fun both => both.2 body rfl error accepted

/-- An update of the admin is answered, and `set_network` raises nothing but a `ValueError`, exactly
when the body can be read and the mask is not null or an unknown float behind fields in order. -/
theorem patch_answered_iff (documented : Documented turn.library) :
    (Answered system (handle server turn system) ∧
      ∀ body, readJson turn.library turn.request = .ok body →
        OnlyValueErrors turn.library system.model (.dict body)) ↔
      BodyRead turn.library turn.request ∧
        ∀ body, readJson turn.library turn.request = .ok body →
          ¬ ∃ mask, ReachesMask turn.library (.dict body) mask ∧ Unreadable turn.library mask := by
  have raises (body : Dict) : OnlyValueErrors turn.library system.model (.dict body) ↔
      ¬ ∃ mask, ReachesMask turn.library (.dict body) mask ∧ Unreadable turn.library mask := by
    rw [← checkNetwork_onlyValueErrors_iff documented]
    exact forall_congr' fun error => imp_congr_left setNetwork_error_iff
  simp only [answered_iff_raises system patch, raises]
  exact and_iff_left_of_imp And.right

end Patch

/-- The body of an update whose mask is written as this text. -/
def patchBody (mask : String) : Bytes :=
  ("\x7b\"IPv4\":\x7b\"Address\":\"10.20.30.22\",\"SubnetMask\":" ++ mask ++
    ",\"Gateway\":\"10.20.30.1\"\x7d,\"VLANId\":200\x7d").toList.map fun c => UInt8.ofNat c.toNat

/-- The update, and a library that reads its body and its length. -/
def patchTurn (text : String) (mask : Json) : Turn where
  request :=
    { method := "PATCH", path := eth, body := patchBody text
      headers := fun name =>
        if name = "Authorization" then some "Bearer admin-secret"
        else if name = "Content-Type" then some "application/json"
        else if name = "Content-Length" then some (toString (patchBody text).length)
        else none }
  exchange := .arrives
  library :=
    { labLibrary with
      parseInt := fun number =>
        if number = toString (patchBody text).length then some (patchBody text).length else none
      loads := fun bytes =>
        if bytes = patchBody text then .ok (.dict (labBody mask))
        else .error ⟨.jsonDecodeError, "Expecting value"⟩ }

theorem patchTurn_documented (text : String) (mask : Json) :
    Documented (patchTurn text mask).library :=
  ⟨labLibrary_documented.address, labLibrary_documented.addressError, labLibrary_documented.mask,
    labLibrary_documented.maskError⟩

theorem patchTurn_admin (text : String) (mask : Json) :
    AdminPatch Audit.lab (patchTurn text mask).request where
  method := rfl
  path := rfl
  allowed := by
    have sameRole : role Audit.lab (patchTurn text mask).request =
        role Audit.lab (Audit.restart "admin-secret").request := rfl
    have admin : role Audit.lab (Audit.restart "admin-secret").request = .ok (some .admin) := by
      decide +kernel
    rw [authorize, sameRole, admin]
    rfl

/-- A null mask ends the connection: the exception is not a `ValueError`. -/
theorem null_mask_unanswered :
    AdminPatch Audit.lab (patchTurn "null" .null).request ∧
      Documented (patchTurn "null" .null).library ∧
      readJson (patchTurn "null" .null).library (patchTurn "null" .null).request =
        .ok (labBody .null) ∧
      ¬ Answered System.fresh (handle Audit.lab (patchTurn "null" .null) System.fresh) := by
  refine ⟨patchTurn_admin "null" .null, patchTurn_documented "null" .null, rfl, ?_⟩
  have status : (handle Audit.lab (patchTurn "null" .null) System.fresh).1.status = none := by
    decide +kernel
  intro answered
  rcases answered.status with same | same
  · rw [status] at same
    cases same
  · rw [status] at same
    cases same

theorem labBody_config (mask : Json) :
    Config (.dict (labBody mask)) (.str "10.20.30.22") mask (.str "10.20.30.1") 200 :=
  ⟨⟨labBody mask, _, rfl, rfl, rfl, rfl, rfl, rfl, rfl, rfl⟩, by decide⟩

theorem patch_answered_netmask :
    Answered System.fresh
      (handle Audit.lab (patchTurn "\"255.255.255.0\"" (.str "255.255.255.0")) System.fresh) := by
  have read : readJson (patchTurn "\"255.255.255.0\"" (.str "255.255.255.0")).library
      (patchTurn "\"255.255.255.0\"" (.str "255.255.255.0")).request =
        .ok (labBody (.str "255.255.255.0")) := rfl
  refine ((patch_answered_iff System.fresh (patchTurn_admin _ _) (patchTurn_documented _ _)).mpr
    ⟨?_, ?_⟩).1
  · intro error failed
    rw [read] at failed
    cases failed
  · rintro body same ⟨mask, ⟨address, gateway, vlan, given, -⟩, unread⟩
    rw [read] at same
    cases same
    obtain ⟨-, rfl, -⟩ := config_unique given (labBody_config (.str "255.255.255.0"))
    exact unread

end EmbeddedRuntime.Bmc.Refusals
