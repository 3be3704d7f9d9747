/-!
# Values, exceptions and library calls of the management service

The bodies of requests are JSON values of any shape.  What the standard library
does with a text or a value is left open; `ipaddress` keeps a cache, so that it
may answer differently from one request to the next.
-/

set_option autoImplicit false

namespace EmbeddedRuntime.Bmc.Python

abbrev Bytes := List UInt8

/-- A dictionary lists its entries as the text has them; the last one of a name counts. -/
inductive Json where
  | null
  | bool (value : Bool)
  | int (value : Int)
  | float (literal : String)
  | str (value : String)
  | list (items : List Json)
  | dict (entries : List (String × Json))

abbrev Dict := List (String × Json)

/-- `isinstance(value, dict)`. -/
def Json.dict? : Json → Option Dict
  | .dict entries => some entries
  | _ => none

def Json.isNone : Json → Bool
  | .null => true
  | _ => false

/-- `isinstance(value, str)`. -/
def Json.str? : Json → Option String
  | .str value => some value
  | _ => none

/-- `set(entries) == names`. -/
def hasKeys (entries : Dict) (names : List String) : Bool :=
  (entries.all fun entry => decide (entry.1 ∈ names)) &&
    names.all fun name => decide (name ∈ entries.map Prod.fst)

/-- `entries[name]`. -/
def item (entries : Dict) (name : String) : Option Json :=
  (entries.reverse.find? fun entry => entry.1 = name).map Prod.snd

/-! ## Exceptions -/

inductive Kind where
  | valueError
  | unicodeDecodeError
  | jsonDecodeError
  | addressValueError
  | netmaskValueError
  | typeError
  | keyError
  | attributeError
  | osError
  | other (name : String)
  deriving DecidableEq, Repr

/-- The subclasses of `ValueError`. -/
def Kind.isValueError : Kind → Bool
  | .valueError => true
  | .unicodeDecodeError => true
  | .jsonDecodeError => true
  | .addressValueError => true
  | .netmaskValueError => true
  | .typeError => false
  | .keyError => false
  | .attributeError => false
  | .osError => false
  | .other _ => false

structure Raised where
  kind : Kind
  text : String
  deriving DecidableEq, Repr

def valueError {α : Type} (text : String) : Except Raised α := .error ⟨.valueError, text⟩

/-! ## The standard library -/

abbrev Address := BitVec 32

structure Library where
  /-- `int(text)`; `none` is a `ValueError`. -/
  parseInt : String → Option Int
  /-- `json.loads`. -/
  loads : Bytes → Except Raised Json
  /-- `json.dumps(value).encode()`. -/
  dumps : Json → Bytes
  /-- `ipaddress.IPv4Address`. -/
  ipv4Address : Json → Except Raised Address
  /-- The prefix length that `ipaddress.IPv4Network` reads from a mask. -/
  prefixLength : Json → Except Raised (Fin 33)

/-- `hmac.compare_digest` of two strings. -/
def compareDigest (first second : String) : Except Raised Bool :=
  if first.toList.all (·.toNat < 128) && second.toList.all (·.toNat < 128) then
    .ok (decide (first = second))
  else
    .error ⟨.typeError, "comparing strings with non-ASCII characters is not supported"⟩

/-- White space that a header can contain. -/
def isSpace (char : Char) : Bool :=
  decide (char.toNat ∈ [9, 10, 11, 12, 13, 28, 29, 30, 31, 32, 133, 160])

/-- `text.split(";")[0]`. -/
def beforeSemicolon (text : String) : List Char := text.toList.takeWhile fun char => char ≠ ';'

def strip (text : List Char) : List Char :=
  ((text.dropWhile isSpace).reverse.dropWhile isSpace).reverse

/-! ## Requests and answers -/

structure Request where
  method : String
  path : String
  /-- `headers.get`. -/
  headers : String → Option String
  /-- What can be read from the connection after the headers. -/
  body : Bytes

/-- What a handler does with a request: it responds, the base class refuses the method, or an
exception ends the connection. -/
inductive Answer where
  | respond (status : Nat) (body : Json)
  | unsupported
  | raised (error : Raised)

def Answer.status : Answer → Option Nat
  | .respond status _ => some status
  | .unsupported => none
  | .raised _ => none

def refuse (status : Nat) (text : String) : Answer := .respond status (.dict [("error", .str text)])

end EmbeddedRuntime.Bmc.Python
