import Mathlib.Data.List.Basic

/-!
# JSON objects of natural numbers

The texts that a program prints for a record of counters: one object, without blanks,
whose members are natural numbers under keys without escapes.  `loads` is a JSON parser
on these texts; of other texts it says nothing.
-/

set_option autoImplicit false

namespace EmbeddedRuntime.Lib.FlatJson

/-- A character that stands for itself between quotes. -/
def plain (c : Char) : Bool := c ≠ '"' && c ≠ '\\' && 0x20 ≤ c.toNat

/-- A number: zero, or digits that do not begin with one. -/
def scanInt : List Char → Option (Nat × List Char)
  | [] => none
  | c :: rest =>
      if c = '0' then some (0, rest)
      else if c.isDigit then
        some (Nat.ofDigitChars 10 ((c :: rest).takeWhile Char.isDigit) 0,
          (c :: rest).dropWhile Char.isDigit)
      else none

/-- A key, a colon and a number. -/
def scanMember : List Char → Option ((String × Nat) × List Char)
  | '"' :: text =>
      match text.dropWhile plain with
      | '"' :: ':' :: value =>
          (scanInt value).map fun found => ((String.ofList (text.takeWhile plain), found.1), found.2)
      | _ => none
  | _ => none

/-- The members up to the closing brace. -/
def scanMembers : Nat → List Char → Option (List (String × Nat))
  | 0, _ => none
  | fuel + 1, text =>
      match scanMember text with
      | some (member, ['\x7d']) => some [member]
      | some (member, ',' :: rest) => (scanMembers fuel rest).map (member :: ·)
      | _ => none

def loads : List Char → Option (List (String × Nat))
  | '\x7b' :: text => scanMembers text.length text
  | _ => none

/-! ## Printing -/

def memberText (member : String × Nat) : List Char :=
  '"' :: (member.1.toList ++ '"' :: ':' :: Nat.toDigits 10 member.2)

/-- The members and the closing brace. -/
def membersText : List (String × Nat) → List Char
  | [] => ['\x7d']
  | [member] => memberText member ++ ['\x7d']
  | member :: next :: rest => memberText member ++ ',' :: membersText (next :: rest)

def objectText (members : List (String × Nat)) : List Char := '\x7b' :: membersText members

/-! ## Reading back what was printed -/

theorem isDigit_toDigits {n : Nat} {c : Char} (member : c ∈ Nat.toDigits 10 n) :
    c.isDigit = true :=
  Nat.isDigit_of_mem_toDigits (by decide) (by decide) member

theorem digitChar_ne_zero {d : Nat} (positive : 0 < d) (small : d < 10) : d.digitChar ≠ '0' := by
  have cases : d = 1 ∨ d = 2 ∨ d = 3 ∨ d = 4 ∨ d = 5 ∨ d = 6 ∨ d = 7 ∨ d = 8 ∨ d = 9 := by omega
  rcases cases with rfl | rfl | rfl | rfl | rfl | rfl | rfl | rfl | rfl <;> decide

/-- The first digit of a positive number. -/
theorem head_toDigits (n : Nat) (positive : 0 < n) :
    ∃ c rest, Nat.toDigits 10 n = c :: rest ∧ c ≠ '0' := by
  induction n using Nat.strongRecOn with
  | _ n ih =>
      rw [Nat.toDigits_eq_if (by decide)]
      by_cases small : n < 10
      · rw [if_pos small]
        exact ⟨n.digitChar, [], rfl, digitChar_ne_zero positive small⟩
      · rw [if_neg small]
        obtain ⟨c, rest, digits, nonzero⟩ := ih (n / 10) (by omega) (by omega)
        exact ⟨c, rest ++ [(n % 10).digitChar], by rw [digits]; rfl, nonzero⟩

theorem scanInt_toDigits (n : Nat) (rest : List Char) (stops : rest.takeWhile Char.isDigit = []) :
    scanInt (Nat.toDigits 10 n ++ rest) = some (n, rest) := by
  by_cases zero : n = 0
  · rw [zero, Nat.toDigits_zero]
    rfl
  obtain ⟨c, more, digits, nonzero⟩ := head_toDigits n (Nat.pos_of_ne_zero zero)
  have all : ∀ c ∈ Nat.toDigits 10 n, c.isDigit = true := fun c member => isDigit_toDigits member
  have digit : c.isDigit = true := all c (digits ▸ List.mem_cons_self)
  have left : rest.dropWhile Char.isDigit = rest := by
    have whole : rest.takeWhile Char.isDigit ++ rest.dropWhile Char.isDigit = rest :=
      List.takeWhile_append_dropWhile
    rwa [stops, List.nil_append] at whole
  have taken : (Nat.toDigits 10 n ++ rest).takeWhile Char.isDigit = _ :=
    List.takeWhile_append_of_pos all
  have dropped : (Nat.toDigits 10 n ++ rest).dropWhile Char.isDigit = _ :=
    List.dropWhile_append_of_pos all
  have value : Nat.ofDigitChars 10 (Nat.toDigits 10 n) 0 = n := Nat.ofDigitChars_ten_toDigits
  rw [digits] at taken dropped value ⊢
  rw [List.cons_append] at taken dropped ⊢
  rw [scanInt, if_neg nonzero, if_pos digit, taken, dropped, stops, List.append_nil, left, value]

theorem scanMember_memberText (member : String × Nat)
    (key : ∀ c ∈ member.1.toList, plain c = true) (rest : List Char)
    (stops : rest.takeWhile Char.isDigit = []) :
    scanMember (memberText member ++ rest) = some (member, rest) := by
  have quote : plain '"' = false := by decide
  have taken : (member.1.toList ++ ('"' :: ':' :: (Nat.toDigits 10 member.2 ++ rest))).takeWhile
      plain = member.1.toList := by
    rw [List.takeWhile_append_of_pos key, List.takeWhile_cons_of_neg (by simp [quote]),
      List.append_nil]
  have dropped : (member.1.toList ++ ('"' :: ':' :: (Nat.toDigits 10 member.2 ++ rest))).dropWhile
      plain = '"' :: ':' :: (Nat.toDigits 10 member.2 ++ rest) := by
    rw [List.dropWhile_append_of_pos key, List.dropWhile_cons_of_neg (by simp [quote])]
  simp only [memberText, List.cons_append, List.append_assoc, scanMember, taken, dropped,
    scanInt_toDigits member.2 rest stops, Option.map_some, String.ofList_toList]

theorem length_membersText (members : List (String × Nat)) :
    members.length ≤ (membersText members).length := by
  induction members with
  | nil => exact Nat.zero_le _
  | cons member rest ih =>
      cases rest with
      | nil => simp [membersText]
      | cons next rest =>
          rw [membersText, List.length_append, List.length_cons, List.length_cons]
          exact Nat.le_trans (Nat.succ_le_succ ih) (Nat.le_add_left ..)

theorem scanMembers_membersText (members : List (String × Nat)) (some : members ≠ [])
    (keys : ∀ member ∈ members, ∀ c ∈ member.1.toList, plain c = true) (fuel : Nat)
    (enough : members.length ≤ fuel) :
    scanMembers fuel (membersText members) = .some members := by
  induction members generalizing fuel with
  | nil => exact absurd rfl some
  | cons member rest ih =>
      have key := keys member List.mem_cons_self
      cases fuel with
      | zero => cases enough
      | succ fuel =>
          cases rest with
          | nil =>
              rw [membersText, scanMembers, scanMember_memberText member key _ (by decide)]
              rfl
          | cons next rest =>
              have later := ih (List.cons_ne_nil _ _)
                (fun other here => keys other (List.mem_cons_of_mem _ here)) fuel
                (Nat.le_of_succ_le_succ enough)
              rw [membersText, scanMembers, scanMember_memberText member key _ (by
                rw [List.takeWhile_cons_of_neg (by decide)])]
              simp only [later, Option.map_some]

/-- The parser reads a printed object back, member by member. -/
theorem loads_objectText (members : List (String × Nat)) (some : members ≠ [])
    (keys : ∀ member ∈ members, ∀ c ∈ member.1.toList, plain c = true) :
    loads (objectText members) = .some members :=
  scanMembers_membersText members some keys _ (length_membersText members)

end EmbeddedRuntime.Lib.FlatJson
