import EmbeddedRuntime.Bmc.Model
import EmbeddedRuntime.Lib.Machine
import EmbeddedRuntime.Lib.Prefix

/-!
# The configuration of the management interface is always usable

What `set_network` stores is told in numbers: the host parts of the addresses
under the mask, not the masks and comparisons of the check.  The forms in which
addresses and masks are given are those `ipaddress` documents.
-/

set_option autoImplicit false

namespace EmbeddedRuntime.Bmc.Network

open EmbeddedRuntime.Lib.Machine
open EmbeddedRuntime.Lib.Prefix
open EmbeddedRuntime.Bmc.Python
open EmbeddedRuntime.Bmc.Model

/-! ## The texts of addresses -/

/-- A decimal number ends where its text meets a dot. -/
theorem decimal_inj {a b : Nat} {rest rest' : List Char}
    (same : (toString a).toList ++ '.' :: rest = (toString b).toList ++ '.' :: rest') :
    a = b ∧ rest = rest' := by
  have digits (n : Nat) (after : List Char) :
      ((toString n).toList ++ '.' :: after).takeWhile Char.isDigit = Nat.toDigits 10 n := by
    have text : (toString n).toList = Nat.toDigits 10 n := Nat.toList_repr
    have all : ∀ c ∈ Nat.toDigits 10 n, c.isDigit = true := fun c member =>
      Nat.isDigit_of_mem_toDigits (by decide) (by decide) member
    rw [text, List.takeWhile_append_of_pos all, List.takeWhile_cons_of_neg (by decide),
      List.append_nil]
  have equal : Nat.toDigits 10 a = Nat.toDigits 10 b := by
    rw [← digits a rest, same, digits]
  obtain rfl : a = b := by
    rw [← Nat.ofDigitChars_ten_toDigits (n := a), equal, Nat.ofDigitChars_ten_toDigits]
  exact ⟨rfl, List.cons_inj_right _ |>.mp (List.append_cancel_left same)⟩

/-- Different addresses have different texts. -/
theorem addressText_injective : Function.Injective addressText := by
  intro a b same
  have lists := congrArg String.toList same
  have dot : ".".toList = ['.'] := rfl
  simp only [addressText, String.toList_append, dot, List.append_assoc, List.singleton_append]
    at lists
  obtain ⟨first, rest⟩ := decimal_inj lists
  obtain ⟨second, rest⟩ := decimal_inj rest
  obtain ⟨third, rest⟩ := decimal_inj rest
  have fourth := (decimal_inj (congrArg (· ++ ['.']) rest)).1
  have inside := a.isLt
  have inside' := b.isLt
  simp only [Nat.shiftRight_eq_div_pow] at first second third fourth
  apply BitVec.eq_of_toNat_eq
  omega

/-! ## Usable configurations -/

/-- An address for a host: neither that of the subnet itself nor its broadcast address. -/
def HostAddress (length : Nat) (address : Address) : Prop :=
  hostPart length address ≠ 0 ∧ hostPart length address ≠ 2 ^ (32 - length) - 1

/-- The texts of a network stand for these addresses and this mask. -/
structure Denotes (network : Network) (address mask gateway : Address) : Prop where
  address : network.address = addressText address
  mask : network.subnetMask = addressText mask
  gateway : network.gateway = addressText gateway

/-- A network has one address, one mask and one gateway. -/
theorem denotes_unique {network : Network} {address mask gateway address' mask' gateway' : Address}
    (first : Denotes network address mask gateway)
    (second : Denotes network address' mask' gateway') :
    address = address' ∧ mask = mask' ∧ gateway = gateway' :=
  ⟨addressText_injective (first.address.symm.trans second.address),
    addressText_injective (first.mask.symm.trans second.mask),
    addressText_injective (first.gateway.symm.trans second.gateway)⟩

/-- Two hosts of one subnet with a mask of at most 30 bits, and a VLAN. -/
structure UsableWith (network : Network) (address mask gateway : Address) (length : Nat) : Prop where
  denotes : Denotes network address mask gateway
  contiguous : ∀ i, i < 32 → mask.getLsbD i = decide (32 - length ≤ i)
  short : length ≤ 30
  sameSubnet : subnet length address = subnet length gateway
  differ : address ≠ gateway
  addressHost : HostAddress length address
  gatewayHost : HostAddress length gateway
  vlan : 1 ≤ network.vlanId ∧ network.vlanId ≤ 4094

def Usable (network : Network) : Prop :=
  ∃ address mask gateway length, UsableWith network address mask gateway length

/-- It is the addresses and the mask of the texts that are usable. -/
theorem Usable.denoted {network : Network} (usable : Usable network) {address mask gateway : Address}
    (denotes : Denotes network address mask gateway) :
    ∃ length, UsableWith network address mask gateway length := by
  obtain ⟨_, _, _, length, found⟩ := usable
  obtain ⟨rfl, rfl, rfl⟩ := denotes_unique found.denotes denotes
  exact ⟨length, found⟩

/-! ## What `ipaddress` documents -/

/-- What `IPv4Address` takes: a text of four decimal numbers, or an integer that fits into 32
bits; a truth value is an integer. -/
inductive AddressForm : Json → Address → Prop where
  | text (address : Address) : AddressForm (.str (addressText address)) address
  | int (value : Nat) (fits : value < 2 ^ 32) : AddressForm (.int value) (BitVec.ofNat 32 value)
  | bool (value : Bool) : AddressForm (.bool value) (BitVec.ofNat 32 value.toNat)

/-- What `IPv4Network` takes as a mask: a prefix length, as a number or in digits, a netmask or a
hostmask.  A float is only met in the cache, at an integer of the same value. -/
inductive MaskForm : Json → Fin 33 → Prop where
  | int (length : Fin 33) : MaskForm (.int length.val) length
  | bool (value : Bool) : MaskForm (.bool value) ⟨value.toNat, by cases value <;> decide⟩
  | cached (literal : String) (length : Fin 33) : MaskForm (.float literal) length
  | digits (zeros : Nat) (length : Fin 33) :
      MaskForm (.str (String.ofList (List.replicate zeros '0' ++ (toString length.val).toList)))
        length
  | netmask (length : Fin 33) : MaskForm (.str (addressText (netmask length))) length
  | hostmask (length : Fin 33) (positive : 0 < length.val) (below : length.val < 32) :
      MaskForm (.str (addressText (hostmask length))) length

/-- The exception with which `IPv4Network` refuses a mask: a list or a dictionary cannot be looked
up in the cache, and what is neither a string nor an integer has no `isascii`. -/
def maskError : Json → Kind
  | .null => .attributeError
  | .float _ => .attributeError
  | .bool _ => .netmaskValueError
  | .int _ => .netmaskValueError
  | .str _ => .netmaskValueError
  | .list _ => .typeError
  | .dict _ => .typeError

/-- The documented behaviour of `ipaddress`. -/
structure Documented (library : Library) : Prop where
  address : ∀ value address, library.ipv4Address value = .ok address → AddressForm value address
  addressError : ∀ value error, library.ipv4Address value = .error error →
    error.kind = .addressValueError
  mask : ∀ value length, library.prefixLength value = .ok length → MaskForm value length
  maskError : ∀ value error, library.prefixLength value = .error error →
    error.kind = maskError value

/-! ## The check -/

/-- The values of a configuration of the right shape. -/
structure Config (config : Json) (address mask gateway : Json) (vlan : Int) : Prop where
  shape : ∃ entries fields, config = .dict entries ∧ hasKeys entries ["IPv4", "VLANId"] = true ∧
    item entries "IPv4" = some (.dict fields) ∧ item entries "VLANId" = some (.int vlan) ∧
    hasKeys fields ["Address", "SubnetMask", "Gateway"] = true ∧
    item fields "Address" = some address ∧ item fields "SubnetMask" = some mask ∧
    item fields "Gateway" = some gateway
  vlan : 1 ≤ vlan ∧ vlan ≤ 4094

/-- The condition of the check, in numbers. -/
theorem usable_iff (address gateway : Address) (length : Fin 33) :
    unusable (ipv4Network address length) address gateway = false ↔
      length.val ≤ 30 ∧ subnet length.val address = subnet length.val gateway ∧
        address ≠ gateway ∧ HostAddress length.val address ∧ HostAddress length.val gateway := by
  have inside : (ipv4Network address length).contains address = true := by
    simp [Net.contains, ipv4Network]
  have gatewayInside : (ipv4Network address length).contains gateway = true ↔
      subnet length.val address = subnet length.val gateway := by
    rw [Net.contains, decide_eq_true_iff]
    exact subnet_eq_iff length.val address gateway
  have ownNetwork (other : Address)
      (same : subnet length.val address = subnet length.val other) :
      other = (ipv4Network address length).network ↔ hostPart length.val other = 0 := by
    rw [← and_prefixMask_eq_self_iff, ← (subnet_eq_iff length.val address other).mpr same, eq_comm]
    rfl
  have ownBroadcast (other : Address)
      (same : subnet length.val address = subnet length.val other) :
      other = (ipv4Network address length).broadcast ↔
        hostPart length.val other = 2 ^ (32 - length.val) - 1 := by
    rw [← last_eq_self_iff, ← (subnet_eq_iff length.val address other).mpr same, eq_comm]
    rfl
  have isLength : (ipv4Network address length).length = length := rfl
  simp only [unusable, inside, Bool.not_true, Bool.or_false, Bool.or_eq_false_iff,
    decide_eq_false_iff_not, Bool.not_eq_false', List.mem_cons, List.not_mem_nil, or_false,
    gatewayInside, isLength, Nat.not_lt]
  constructor
  · rintro ⟨⟨⟨⟨short, same⟩, host⟩, gatewayHost⟩, differ⟩
    rw [ownNetwork address rfl, ownBroadcast address rfl, not_or] at host
    rw [ownNetwork gateway same, ownBroadcast gateway same, not_or] at gatewayHost
    exact ⟨short, same, differ, host, gatewayHost⟩
  · rintro ⟨short, same, differ, host, gatewayHost⟩
    rw [ownNetwork address rfl, ownBroadcast address rfl, not_or, ownNetwork gateway same,
      ownBroadcast gateway same, not_or]
    exact ⟨⟨⟨⟨short, same⟩, host⟩, gatewayHost⟩, differ⟩

/-- The `try` block on the three values. -/
def topologyOf (library : Library) (address mask gateway : Json) :
    Except Raised (Address × Address × Net) := do
  let address ← library.ipv4Address address
  let gateway ← library.ipv4Address gateway
  let length ← library.prefixLength mask
  let net := ipv4Network address length
  if unusable net address gateway then valueError "Unusable host/gateway address"
  return (address, gateway, net)

theorem item_of_hasKeys {entries : Dict} {names : List String} (has : hasKeys entries names = true)
    (name : String) (member : name ∈ names) : ∃ value, item entries name = some value := by
  simp only [hasKeys, Bool.and_eq_true, List.all_eq_true, decide_eq_true_iff] at has
  obtain ⟨entry, inside, rfl⟩ := List.mem_map.mp (has.2 name member)
  unfold item
  cases found : entries.reverse.find? fun other => other.1 = entry.1 with
  | none =>
      have none := List.find?_eq_none.mp found entry (List.mem_reverse.mpr inside)
      simp at none
  | some other => exact ⟨other.2, rfl⟩

section Check
variable (library : Library) {config address mask gateway : Json} {vlan : Int}

theorem checkNetwork_config (given : Config config address mask gateway vlan) :
    checkNetwork library config =
      match topologyOf library address mask gateway with
      | .error error =>
          if Kind.invalidSubnet error.kind then valueError "Invalid IPv4 subnet" else .error error
      | .ok (address, gateway, net) =>
          .ok {
            address := addressText address
            subnetMask := addressText (netmask net.length)
            gateway := addressText gateway
            vlanId := vlan } := by
  obtain ⟨⟨entries, fields, rfl, keys, ipv4, isVlan, fieldKeys, isAddress, isMask, isGateway⟩,
    inRange⟩ := given
  have topology : checkTopology library fields = topologyOf library address mask gateway := by
    simp only [checkTopology, field, isAddress, isMask, isGateway, topologyOf]
    rfl
  cases read : topologyOf library address mask gateway with
  | error error =>
    simp only [checkNetwork, Json.dict?, keys, ipv4, isVlan, fieldKeys, int?, inRange, topology, read,
      Bool.not_true, Bool.false_eq_true, if_false, and_self, not_true_eq_false]
  | ok net =>
    simp only [checkNetwork, Json.dict?, keys, ipv4, isVlan, fieldKeys, int?, inRange, topology, read,
      Bool.not_true, Bool.false_eq_true, if_false, and_self, not_true_eq_false]

/-- Whatever else is given is refused. -/
theorem config_or_refused (config : Json) :
    (∃ address mask gateway vlan, Config config address mask gateway vlan) ∨
      ∃ text, checkNetwork library config = valueError text := by
  unfold checkNetwork
  cases config with
  | null | bool | int | float | str | list => exact Or.inr ⟨_, rfl⟩
  | dict entries =>
      simp only [Json.dict?]
      by_cases keys : hasKeys entries ["IPv4", "VLANId"] = true
      · obtain ⟨ipv4, isIpv4⟩ := item_of_hasKeys keys "IPv4" (by simp)
        obtain ⟨vlan, isVlan⟩ := item_of_hasKeys keys "VLANId" (by simp)
        simp only [keys, isIpv4, isVlan, Bool.not_true, Bool.false_eq_true, if_false]
        cases ipv4 with
        | null | bool | int | float | str | list => exact Or.inr ⟨_, rfl⟩
        | dict fields =>
            simp only
            by_cases fieldKeys : hasKeys fields ["Address", "SubnetMask", "Gateway"] = true
            · obtain ⟨address, isAddress⟩ := item_of_hasKeys fieldKeys "Address" (by simp)
              obtain ⟨mask, isMask⟩ := item_of_hasKeys fieldKeys "SubnetMask" (by simp)
              obtain ⟨gateway, isGateway⟩ := item_of_hasKeys fieldKeys "Gateway" (by simp)
              simp only [fieldKeys, Bool.not_true, Bool.false_eq_true, if_false]
              cases vlan with
              | null | bool | float | str | list | dict => exact Or.inr ⟨_, rfl⟩
              | int vlan =>
                  simp only [int?]
                  by_cases inRange : 1 ≤ vlan ∧ vlan ≤ 4094
                  · exact Or.inl ⟨address, mask, gateway, vlan, ⟨entries, fields, rfl, keys, isIpv4,
                      isVlan, fieldKeys, isAddress, isMask, isGateway⟩, inRange⟩
                  · rw [if_pos inRange]
                    exact Or.inr ⟨_, rfl⟩
            · simp only [Bool.eq_false_iff.mpr fieldKeys, Bool.not_false, if_true]
              exact Or.inr ⟨_, rfl⟩
      · simp only [Bool.eq_false_iff.mpr keys, Bool.not_false, if_true]
        exact Or.inr ⟨_, rfl⟩

theorem topologyOf_ok {address' gateway' : Address} {net : Net}
    (checked : topologyOf library address mask gateway = .ok (address', gateway', net)) :
    library.ipv4Address address = .ok address' ∧ library.ipv4Address gateway = .ok gateway' ∧
      ∃ length, library.prefixLength mask = .ok length ∧ net = ipv4Network address' length ∧
        unusable net address' gateway' = false := by
  unfold topologyOf at checked
  cases first : library.ipv4Address address with
  | error error =>
      rw [first] at checked
      cases checked
  | ok parsed =>
      cases second : library.ipv4Address gateway with
      | error error =>
          rw [first, second] at checked
          cases checked
      | ok parsed' =>
          cases third : library.prefixLength mask with
          | error error =>
              rw [first, second, third] at checked
              cases checked
          | ok length =>
              rw [first, second, third] at checked
              simp only [bind, Except.bind, pure, Except.pure] at checked
              cases refused : unusable (ipv4Network parsed length) parsed parsed' with
              | true =>
                  rw [refused] at checked
                  cases checked
              | false =>
                  rw [refused] at checked
                  cases checked
                  exact ⟨rfl, rfl, length, rfl, rfl, refused⟩

/-- What an accepted configuration stores, given what the library makes of its values. -/
theorem checkNetwork_ok {network : Network} (accepted : checkNetwork library config = .ok network) :
    ∃ address mask gateway vlan address' gateway' length,
      Config config address mask gateway vlan ∧ library.ipv4Address address = .ok address' ∧
        library.ipv4Address gateway = .ok gateway' ∧ library.prefixLength mask = .ok length ∧
        unusable (ipv4Network address' length) address' gateway' = false ∧
        network =
          { address := addressText address', subnetMask := addressText (netmask length)
            gateway := addressText gateway', vlanId := vlan } := by
  rcases config_or_refused library config with ⟨address, mask, gateway, vlan, given⟩ | ⟨text, refused⟩
  · rw [checkNetwork_config library given] at accepted
    cases checked : topologyOf library address mask gateway with
    | error error =>
        rw [checked] at accepted
        simp only at accepted
        split_ifs at accepted
        cases accepted
    | ok result =>
        obtain ⟨address', gateway', net⟩ := result
        obtain ⟨first, second, length, third, rfl, usable⟩ := topologyOf_ok library checked
        rw [checked] at accepted
        cases accepted
        exact ⟨address, mask, gateway, vlan, address', gateway', length, given, first, second,
          third, usable, rfl⟩
  · rw [refused] at accepted
    cases accepted

end Check

/-! ## Every sequence of calls -/

theorem contiguous_netmask (length : Fin 33) (i : Nat) (inside : i < 32) :
    (netmask length).getLsbD i = decide (32 - length.val ≤ i) :=
  getLsbD_prefixMask length.val inside

theorem checkNetwork_usable {library : Library} {config : Json} {network : Network}
    (accepted : checkNetwork library config = .ok network) : Usable network := by
  obtain ⟨_, _, _, vlan, address, gateway, length, given, -, -, -, usable, rfl⟩ :=
    checkNetwork_ok library accepted
  obtain ⟨short, same, differ, host, gatewayHost⟩ := (usable_iff address gateway length).mp usable
  exact ⟨address, netmask length, gateway, length.val, ⟨rfl, rfl, rfl⟩, contiguous_netmask length,
    short, same, differ, host, gatewayHost, given.vlan⟩

/-- The configuration a fresh model starts with. -/
theorem fresh_usable : Usable Model.fresh.network :=
  ⟨0xC0A83214#32, netmask 24, 0xC0A83201#32, 24, ⟨by decide +kernel, by decide +kernel,
    by decide +kernel⟩, contiguous_netmask 24, by decide, by decide +kernel, by decide,
    ⟨by decide +kernel, by decide +kernel⟩, ⟨by decide +kernel, by decide +kernel⟩, by decide⟩

/-- A call of `set_network`, with the library as it is at the time. -/
structure Call where
  library : Library
  config : Json

/-- A call that raises leaves the model. -/
def configure (model : Model) (call : Call) : Model :=
  match model.setNetwork call.library call.config with
  | .ok next => next
  | .error _ => model

/-- The stored network is the one that was given: its address and gateway and VLAN, and the netmask
of the subnet in which the address was found under the given mask. -/
structure Stored (config : Json) (network : Network) : Prop where
  given : ∃ address mask gateway vlan address' gateway' length,
    Config config address mask gateway vlan ∧
      AddressForm address address' ∧ MaskForm mask length ∧ AddressForm gateway gateway' ∧
      unusable (ipv4Network address' length) address' gateway' = false ∧
      network.address = addressText address' ∧
      network.subnetMask = addressText (netmask (ipv4Network address' length).length) ∧
      network.gateway = addressText gateway' ∧ network.vlanId = vlan

theorem setNetwork_ok {library : Library} {model next : Model} {config : Json}
    (accepted : model.setNetwork library config = .ok next) :
    checkNetwork library config = .ok next.network := by
  unfold Model.setNetwork at accepted
  cases checked : checkNetwork library config with
  | error error =>
      rw [checked] at accepted
      cases accepted
  | ok network =>
      rw [checked] at accepted
      cases accepted
      rfl

theorem configure_usable {model : Model} (usable : Usable model.network) (call : Call) :
    Usable (configure model call).network := by
  unfold configure
  cases result : model.setNetwork call.library call.config with
  | ok next => exact checkNetwork_usable (setNetwork_ok result)
  | error error => exact usable

theorem setNetwork_stored {library : Library} (documented : Documented library)
    {model next : Model} {config : Json} (accepted : model.setNetwork library config = .ok next) :
    Stored config next.network := by
  obtain ⟨address, mask, gateway, vlan, address', gateway', length, given, first, second, third,
    usable, stored⟩ := checkNetwork_ok library (setNetwork_ok accepted)
  refine ⟨address, mask, gateway, vlan, address', gateway', length, given,
    documented.address address address' first, documented.mask mask length third,
    documented.address gateway gateway' second, usable, ?_⟩
  rw [stored]
  exact ⟨rfl, rfl, rfl, rfl⟩

/-- After every sequence of calls on a fresh model the configuration is usable, and every call that
succeeds stores what it was given. -/
theorem network_always_usable (calls : List Call)
    (documented : ∀ call ∈ calls, Documented call.library) :
    Usable (run configure Model.fresh calls).network ∧
      ∀ before call after next, calls = before ++ call :: after →
        (run configure Model.fresh before).setNetwork call.library call.config = .ok next →
          Stored call.config next.network := by
  refine ⟨?_, ?_⟩
  · exact run_invariant (fun model => Usable model.network)
      (fun _ call usable _ => configure_usable usable call) Model.fresh calls fresh_usable
      (admits_true configure Model.fresh calls)
  · rintro before call after next rfl accepted
    exact setNetwork_stored (documented call (by simp)) accepted

/-- A library that knows two addresses and one mask. -/
def labLibrary : Library where
  parseInt := fun _ => some 1
  loads := fun _ => .error ⟨.jsonDecodeError, "Expecting value"⟩
  dumps := fun _ => []
  ipv4Address := fun value =>
    match value with
    | .str "10.20.30.22" => .ok 0x0A141E16#32
    | .str "10.20.30.1" => .ok 0x0A141E01#32
    | _ => .error ⟨.addressValueError, "Expected 4 octets"⟩
  prefixLength := fun value =>
    match value with
    | .str "255.255.255.0" => .ok 24
    | other => .error ⟨maskError other, "is not a valid netmask"⟩

theorem labLibrary_documented : Documented labLibrary where
  address := by
    intro value address accepted
    simp only [labLibrary] at accepted
    split at accepted
    · cases accepted
      exact .text 0x0A141E16#32
    · cases accepted
      exact .text 0x0A141E01#32
    · cases accepted
  addressError := by
    intro value error refused
    simp only [labLibrary] at refused
    split at refused <;> cases refused
    rfl
  mask := by
    intro value length accepted
    simp only [labLibrary] at accepted
    split at accepted
    · cases accepted
      exact .netmask 24
    · cases accepted
  maskError := by
    intro value error refused
    simp only [labLibrary] at refused
    split at refused <;> cases refused
    rfl

/-- The addresses of the laboratory with some mask. -/
def labBody (mask : Json) : Dict :=
  [("IPv4", .dict [("Address", .str "10.20.30.22"), ("SubnetMask", mask),
    ("Gateway", .str "10.20.30.1")]), ("VLANId", .int 200)]

theorem network_always_usable_lab :
    let calls := [Call.mk labLibrary (.dict (labBody (.str "255.255.255.0"))),
      Call.mk labLibrary (.dict (labBody .null))]
    (run configure Model.fresh calls).network =
        { address := "10.20.30.22", subnetMask := "255.255.255.0", gateway := "10.20.30.1"
          vlanId := 200 } ∧
      Usable (run configure Model.fresh calls).network := by
  intro calls
  refine ⟨by decide +kernel, (network_always_usable calls ?_).1⟩
  intro call member
  simp only [calls, List.mem_cons, List.not_mem_nil, or_false] at member
  rcases member with rfl | rfl
  · exact labLibrary_documented
  · exact labLibrary_documented

end EmbeddedRuntime.Bmc.Network
