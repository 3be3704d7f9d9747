import EmbeddedRuntime.Bmc.Python

/-!
# The management state of `bmc.py`

The class `Model`: the network of the management interface, the generation and
the event log, which keeps the last `logLimit` events.
-/

set_option autoImplicit false

namespace EmbeddedRuntime.Bmc.Model

open EmbeddedRuntime.Bmc.Python

structure Event where
  id : String
  message : String
  severity : String
  deriving DecidableEq, Repr

def Event.json (event : Event) : Json :=
  .dict [("Id", .str event.id), ("Message", .str event.message),
    ("Severity", .str event.severity)]

structure Network where
  address : String
  subnetMask : String
  gateway : String
  vlanId : Int
  deriving DecidableEq, Repr

def Network.json (network : Network) : Json :=
  .dict [("Address", .str network.address), ("SubnetMask", .str network.subnetMask),
    ("Gateway", .str network.gateway), ("VLANId", .int network.vlanId)]

structure Model where
  generation : Nat
  events : List Event
  sequence : Nat
  network : Network
  deriving DecidableEq, Repr

def Model.fresh : Model where
  generation := 1
  events := []
  sequence := 0
  network :=
    { address := "192.168.50.20", subnetMask := "255.255.255.0", gateway := "192.168.50.1"
      vlanId := 100 }

/-! ## The event log -/

def logLimit : Nat := 128

/-- `deque.append` with a `maxlen`: the first item goes when there is no room. -/
def append {α : Type} (limit : Nat) (items : List α) (item : α) : List α :=
  (items ++ [item]).drop (items.length + 1 - limit)

def Model.event (model : Model) (message : String) : Model :=
  { model with
    sequence := model.sequence + 1
    events := append logLimit model.events
      { id := toString (model.sequence + 1), message, severity := "OK" } }

def Model.logs (model : Model) : List Event := model.events

/-! ## Addresses -/

/-- `str(address)`. -/
def addressText (address : Address) : String :=
  let octet (shift : Nat) := toString ((address.toNat >>> shift) % 256)
  octet 24 ++ "." ++ octet 16 ++ "." ++ octet 8 ++ "." ++ octet 0

/-- `netmask` of a prefix length: `ALL_ONES ^ (ALL_ONES >> length)`. -/
def netmask (length : Fin 33) : Address :=
  BitVec.allOnes 32 ^^^ (BitVec.allOnes 32 >>> length.val)

def hostmask (length : Fin 33) : Address := netmask length ^^^ BitVec.allOnes 32

/-- `IPv4Network((str(address), mask), strict=False)` for a mask of that length. -/
structure Net where
  network : Address
  length : Fin 33
  deriving DecidableEq

def ipv4Network (address : Address) (length : Fin 33) : Net :=
  { network := address &&& netmask length, length }

def Net.broadcast (net : Net) : Address := net.network ||| hostmask net.length

/-- `address in net`. -/
def Net.contains (net : Net) (address : Address) : Bool :=
  decide (net.network = address &&& netmask net.length)

/-- The condition under which `set_network` refuses. -/
def unusable (net : Net) (address gateway : Address) : Bool :=
  decide (net.length.val > 30) || !net.contains address || !net.contains gateway ||
    decide (address ∈ [net.network, net.broadcast]) ||
    decide (gateway ∈ [net.network, net.broadcast]) || decide (address = gateway)

/-! ## `set_network` -/

/-- `ipv4[name]` in the `try` block. -/
def field (entries : Dict) (name : String) : Except Raised Json :=
  match item entries name with
  | none => .error ⟨.keyError, name⟩
  | some value => .ok value

/-- The `try` block. -/
def checkTopology (library : Library) (ipv4 : Dict) : Except Raised (Address × Address × Net) := do
  let address ← library.ipv4Address (← field ipv4 "Address")
  let gateway ← library.ipv4Address (← field ipv4 "Gateway")
  let length ← library.prefixLength (← field ipv4 "SubnetMask")
  let net := ipv4Network address length
  if unusable net address gateway then valueError "Unusable host/gateway address"
  return (address, gateway, net)

/-- The exceptions that the `except` clause turns into a `ValueError`. -/
def Kind.invalidSubnet : Kind → Bool
  | .addressValueError => true
  | .netmaskValueError => true
  | .typeError => true
  | .keyError => true
  | .valueError => false
  | .unicodeDecodeError => false
  | .jsonDecodeError => false
  | .attributeError => false
  | .osError => false
  | .other _ => false

/-- `type(vlan) is int`. -/
def int? : Json → Option Int
  | .int value => some value
  | _ => none

/-- What is checked before the first change. -/
def checkNetwork (library : Library) (config : Json) : Except Raised Network :=
  match config.dict? with
  | none => valueError "Require IPv4 and VLANId"
  | some entries =>
      if !hasKeys entries ["IPv4", "VLANId"] then valueError "Require IPv4 and VLANId"
      else
        match item entries "IPv4", item entries "VLANId" with
        | some ipv4, some vlan =>
            match ipv4.dict? with
            | none => valueError "Invalid IPv4 fields"
            | some fields =>
                if !hasKeys fields ["Address", "SubnetMask", "Gateway"] then
                  valueError "Invalid IPv4 fields"
                else
                  match int? vlan with
                  | none => valueError "VLAN must be 1..4094"
                  | some vlanId =>
                      if ¬ (1 ≤ vlanId ∧ vlanId ≤ 4094) then valueError "VLAN must be 1..4094"
                      else
                        match checkTopology library fields with
                        | .error error =>
                            if Kind.invalidSubnet error.kind then
                              valueError "Invalid IPv4 subnet"
                            else .error error
                        | .ok (address, gateway, net) =>
                            .ok {
                              address := addressText address
                              subnetMask := addressText (netmask net.length)
                              gateway := addressText gateway
                              vlanId }
        | _, _ => .error ⟨.keyError, "config"⟩

def networkMessage : String := "Management NIC configuration updated"

def Model.setNetwork (model : Model) (library : Library) (config : Json) : Except Raised Model :=
  match checkNetwork library config with
  | .error error => .error error
  | .ok network => .ok ({ model with network }.event networkMessage)

end EmbeddedRuntime.Bmc.Model
