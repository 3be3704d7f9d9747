import EmbeddedRuntime.Firmware.Format
import EmbeddedRuntime.Lib.Machine
import Mathlib.Data.List.Chain
import Mathlib.Data.List.Nodup
import Mathlib.Data.Prod.Lex

/-!
# Update histories

Candidates are offered to `check_update_policy` one after the other, each with
the version of the last one accepted as the current version, written as
`fw inspect` prints it.  Versions are ordered by major, then minor, then patch.
-/

set_option autoImplicit false

namespace EmbeddedRuntime.Firmware.Updates

open EmbeddedRuntime.Lib.Deliveries
open EmbeddedRuntime.Lib.Machine
open EmbeddedRuntime.Firmware.Image
open EmbeddedRuntime.Firmware.BitFlips
open EmbeddedRuntime.Firmware.Format

/-! ## Versions and their order -/

@[ext] structure Version where
  major : UInt16
  minor : UInt16
  patch : UInt16
  deriving DecidableEq, Repr

def versionOf (h : FwHeader) : Version := ⟨h.major, h.minor, h.patch⟩

/-- The numbers of a version, the most significant first. -/
def Version.key (v : Version) : ℕ ×ₗ ℕ ×ₗ ℕ :=
  toLex (v.major.toNat, toLex (v.minor.toNat, v.patch.toNat))

theorem Version.key_injective : Function.Injective Version.key := by
  intro a b same
  obtain ⟨major, rest⟩ := Prod.mk.inj (toLex.injective same)
  obtain ⟨minor, patch⟩ := Prod.mk.inj (toLex.injective rest)
  exact Version.ext (UInt16.toNat_inj.mp major) (UInt16.toNat_inj.mp minor)
    (UInt16.toNat_inj.mp patch)

instance : LinearOrder Version := LinearOrder.lift' Version.key Version.key_injective

theorem Version.lt_iff (a b : Version) :
    a < b ↔ a.major < b.major ∨
      a.major = b.major ∧ (a.minor < b.minor ∨ a.minor = b.minor ∧ a.patch < b.patch) := by
  change a.key < b.key ↔ _
  rw [Version.key, Version.key, Prod.Lex.toLex_lt_toLex, Prod.Lex.toLex_lt_toLex]
  simp only [UInt16.lt_iff_toNat_lt, UInt16.toNat_inj]

/-- `semver_cmp` is positive exactly when the first version is the later one. -/
theorem semverCmp_pos_iff (a b : FwHeader) :
    semverCmp a b > 0 ↔ versionOf b < versionOf a := by
  rw [Version.lt_iff]
  unfold semverCmp versionOf
  by_cases major : a.major = b.major
  · rw [if_neg (not_not.mpr major)]
    by_cases minor : a.minor = b.minor
    · rw [if_neg (not_not.mpr minor)]
      by_cases patch : a.patch = b.patch
      · simp [major, minor, patch]
      · rw [if_pos patch]
        split_ifs with later
        · simp [major, minor, later]
        · simp [major, minor, later]
    · rw [if_pos minor]
      split_ifs with later
      · simp [major, later]
      · simp [major, Ne.symm minor, later]
  · rw [if_pos major]
    split_ifs with later
    · simp [later]
    · simp [Ne.symm major, later]

/-! ## A version written in decimal -/

/-- The current version as `check_update_policy` keeps it. -/
def Version.header (v : Version) : FwHeader :=
  { major := v.major, minor := v.minor, patch := v.patch, arch := 0, imageSize := 0, crc32 := 0 }

/-- The characters of `X.Y.Z`. -/
def Version.text (v : Version) : List Char := (versionText v.header).toList

section Decimal

theorem not_isSpace_of_isDigit {c : Char} (digit : c.isDigit = true) : isSpace c = false := by
  unfold isSpace
  simp only [Bool.or_eq_false_iff, decide_eq_false_iff_not]
  refine ⟨⟨⟨⟨⟨?_, ?_⟩, ?_⟩, ?_⟩, ?_⟩, ?_⟩ <;>
    (rintro rfl; exact absurd digit (by decide))

theorem scanSign_of_isDigit {c : Char} (rest : List Char) (digit : c.isDigit = true) :
    scanSign (c :: rest) = (false, c :: rest) := by
  unfold scanSign
  split
  next minus =>
    rw [(List.cons.inj minus).1] at digit
    exact absurd digit (by decide)
  next plus =>
    rw [(List.cons.inj plus).1] at digit
    exact absurd digit (by decide)
  next => rfl

/-- `%u` reads a number of sixteen bits back. -/
theorem scanUnsigned_toString (n : UInt16) (rest : List Char)
    (stops : rest.takeWhile Char.isDigit = []) :
    scanUnsigned ((toString n).toList ++ rest) = some (n.toUInt32, rest) := by
  have digits : (toString n).toList = Nat.toDigits 10 n.toNat := Nat.toList_repr
  have all : ∀ c ∈ Nat.toDigits 10 n.toNat, c.isDigit = true := fun c member =>
    Nat.isDigit_of_mem_toDigits (by decide) (by decide) member
  have value : digitsValue (Nat.toDigits 10 n.toNat) = n.toNat := Nat.ofDigitChars_ten_toDigits
  have some : Nat.toDigits 10 n.toNat ≠ [] := Nat.toDigits_ne_nil
  have small : n.toNat < 2 ^ 16 := n.toNat_lt
  rw [digits]
  have skipped : (Nat.toDigits 10 n.toNat ++ rest).dropWhile isSpace =
        Nat.toDigits 10 n.toNat ++ rest ∧
      scanSign (Nat.toDigits 10 n.toNat ++ rest) = (false, Nat.toDigits 10 n.toNat ++ rest) := by
    obtain ⟨first, more, cons⟩ := List.exists_cons_of_ne_nil some
    have digit := all first (cons ▸ List.mem_cons_self)
    rw [cons, List.cons_append]
    exact ⟨List.dropWhile_cons_of_neg (by rw [not_isSpace_of_isDigit digit]; decide),
      scanSign_of_isDigit _ digit⟩
  have taken : (Nat.toDigits 10 n.toNat ++ rest).takeWhile Char.isDigit =
      Nat.toDigits 10 n.toNat := by
    rw [List.takeWhile_append_of_pos all, stops, List.append_nil]
  have dropped : (Nat.toDigits 10 n.toNat ++ rest).dropWhile Char.isDigit = rest := by
    have whole : rest.takeWhile Char.isDigit ++ rest.dropWhile Char.isDigit = rest :=
      List.takeWhile_append_dropWhile
    rw [stops, List.nil_append] at whole
    rw [List.dropWhile_append_of_pos all, whole]
  have stored : (UInt64.ofNat n.toNat).toUInt32 = n.toUInt32 := by
    apply UInt32.toNat_inj.mp
    simp
  unfold scanUnsigned
  rw [skipped.1, skipped.2]
  simp only [taken, dropped, value, if_neg some, Bool.false_eq_true, if_false,
    if_neg (show ¬ n.toNat ≥ 2 ^ 64 by omega), stored]

theorem versionParse_text (v : Version) :
    versionParse v.text = some (v.major, v.minor, v.patch) := by
  let afterMinor := '.' :: (toString v.patch).toList
  let afterMajor := '.' :: ((toString v.minor).toList ++ afterMinor)
  have text : v.text = (toString v.major).toList ++ afterMajor := by
    simp [Version.text, versionText, Version.header, afterMajor, afterMinor]
  have major : scanUnsigned v.text = some (v.major.toUInt32, afterMajor) := by
    rw [text]
    exact scanUnsigned_toString v.major afterMajor rfl
  have minor := scanUnsigned_toString v.minor afterMinor rfl
  have patch := scanUnsigned_toString v.patch [] rfl
  rw [List.append_nil] at patch
  have bound (n : UInt16) : ¬ n.toUInt32 > 65535 := by
    have small : n.toNat < 2 ^ 16 := n.toNat_lt
    rw [gt_iff_lt, UInt32.lt_iff_toNat_lt]
    simp
    omega
  unfold versionParse
  simp only [Option.bind_eq_bind, major, Option.bind_some, scanPoint, afterMajor, minor,
    afterMinor, patch, ne_eq, not_true_eq_false, bound, or_self, if_false,
    UInt16.toUInt16_toUInt32]

end Decimal

/-! ## Candidates -/

/-- A file that is offered and what the calls on it do. -/
structure Candidate where
  file : List UInt8
  calls : ReadCalls
  delivers : contents calls.reads = file

def Candidate.version (c : Candidate) : Version := versionOf (headerOf c.file)

/-- `check_update_policy` returns 0. -/
def accepts (allowDowngrade : Bool) (current : Version) (c : Candidate) : Bool :=
  decide ((checkUpdatePolicy c.calls c.file.length current.text allowDowngrade).1 = 0)

theorem header_of_parse {bytes : List UInt8} {h : FwHeader} (parsed : parseHeader bytes = some h) :
    h = { arch := getU16Le bytes 6, major := getU16Le bytes 8, minor := getU16Le bytes 10,
          patch := getU16Le bytes 12, imageSize := getU64Le bytes 16,
          crc32 := getU32Le bytes 24 } := by
  unfold parseHeader at parsed
  split_ifs at parsed
  exact (Option.some.inj parsed).symm

theorem header_of_read {reads rest : List (Delivery UInt8)} {h : FwHeader}
    (read : readImageHeader reads = some (h, rest)) : h = headerOf (contents reads) := by
  unfold readImageHeader fill at read
  cases filled : fillLoop fwHeaderSize [] reads with
  | ended => simp [filled] at read
  | failed => simp [filled] at read
  | full cells left =>
      obtain ⟨length, front⟩ := fillLoop_full (Nat.zero_le _) filled
      have header : (contents reads).take fwHeaderSize = cells := by
        rw [← List.nil_append (contents reads), front, ← length, List.take_left]
      simp only [filled, Option.map_eq_some_iff, Prod.mk.injEq] at read
      obtain ⟨_, parsed, rfl, -⟩ := read
      rw [headerOf, header]
      exact header_of_parse parsed

/-- The header that is read is the one in the file, also when a later call fails. -/
theorem header_of_verify {c : Candidate} {size : Nat} {report : Report}
    (verified : verifyImageFile c.calls size = some report) :
    report.header = headerOf c.file := by
  unfold verifyImageFile examine at verified
  cases opens : c.calls.opens with
  | false => simp [opens] at verified
  | true =>
      cases read : readImageHeader c.calls.reads with
      | none => simp [opens, read] at verified
      | some found =>
          cases stat : c.calls.fstat with
          | false => simp [opens, read, stat] at verified
          | true =>
              simp only [opens, read, stat, Bool.not_true, Bool.false_eq_true, if_false,
                Option.some.injEq] at verified
              rw [← verified, header_of_read read, c.delivers]

/-- One check: the integrity first, then the version. -/
theorem accepts_iff (allowDowngrade : Bool) (current : Version) (c : Candidate) :
    accepts allowDowngrade current c = true ↔
      Verified c.calls c.file.length ∧ (allowDowngrade = true ∨ current < c.version) := by
  rw [accepts, decide_eq_true_iff, checkUpdatePolicy, versionParse_text]
  cases verified : verifyImageFile c.calls c.file.length with
  | none => simp [Verified, verified]
  | some report =>
      have newer : semverCmp report.header current.header > 0 ↔ current < c.version := by
        rw [semverCmp_pos_iff, header_of_verify verified]
        rfl
      have whole : Verified c.calls c.file.length ↔
          report.sizeOk = true ∧ report.crcOk = true := by
        simp [Verified, verified]
      rw [whole, ← newer]
      simp only
      cases sizeOk : report.sizeOk with
      | false => simp
      | true =>
          cases crcOk : report.crcOk with
          | false => simp
          | true => cases allowDowngrade <;> simp [Version.header]

/-! ## Histories -/

section Histories
variable (start : Version)

/-- The version of the last candidate accepted, at first the one the device started with. -/
def currentVersion (accepted : List Candidate) : Version :=
  (accepted.getLast?.map Candidate.version).getD start

/-- A candidate is offered after some were accepted. -/
def offer (accepted : List Candidate) (c : Candidate) : List Candidate :=
  if accepts false (currentVersion start accepted) c then accepted ++ [c] else accepted

def acceptedOf (candidates : List Candidate) : List Candidate :=
  run (offer start) [] candidates

/-- Each version is later than the one before it. -/
def Increasing (accepted : List Candidate) : Prop :=
  List.IsChain (· < ·) (start :: accepted.map Candidate.version)

variable {start}

theorem getLast?_versions (accepted : List Candidate) :
    (start :: accepted.map Candidate.version).getLast? =
      some (currentVersion start accepted) := by
  rw [List.getLast?_cons, List.getLast?_map, currentVersion]

theorem offer_increasing {accepted : List Candidate} (c : Candidate)
    (increasing : Increasing start accepted) : Increasing start (offer start accepted c) := by
  unfold offer
  split_ifs with accept
  · have later := ((accepts_iff false _ c).mp accept).2.resolve_left Bool.false_ne_true
    unfold Increasing
    rw [List.map_append, ← List.cons_append, List.isChain_append]
    refine ⟨increasing, List.isChain_singleton _, ?_⟩
    intro last isLast first isFirst
    rw [getLast?_versions] at isLast
    rw [← Option.mem_some.mp isLast, ← Option.mem_some.mp isFirst]
    exact later
  · exact increasing

theorem acceptedOf_increasing (candidates : List Candidate) :
    Increasing start (acceptedOf start candidates) :=
  run_invariant (Increasing start) (fun _ c increasing _ => offer_increasing c increasing) []
    candidates (List.isChain_singleton start) (admits_true (offer start) [] candidates)

end Histories

/-- Without `--allow-downgrade` the accepted versions increase strictly from the starting version,
no image is accepted twice, and a candidate is accepted exactly when it verifies and is newer than
the current version; with it, exactly when it verifies. -/
theorem anti_rollback (start : Version) (candidates : List Candidate) :
    (start :: (acceptedOf start candidates).map Candidate.version).Pairwise (· < ·) ∧
      ((acceptedOf start candidates).map Candidate.file).Nodup ∧
      (∀ before c, accepts false (currentVersion start (acceptedOf start before)) c = true ↔
        Verified c.calls c.file.length ∧
          currentVersion start (acceptedOf start before) < c.version) ∧
      ∀ current c, accepts true current c = true ↔ Verified c.calls c.file.length := by
  have increasing : (start :: (acceptedOf start candidates).map Candidate.version).Pairwise
      (· < ·) := List.isChain_iff_pairwise.mp (acceptedOf_increasing candidates)
  refine ⟨increasing, ?_, ?_, ?_⟩
  · -- the version is a function of the bytes
    apply List.Nodup.of_map (fun file => versionOf (headerOf file))
    rw [List.map_map]
    exact increasing.tail.imp fun earlier => ne_of_lt earlier
  · intro before c
    rw [accepts_iff]
    simp
  · intro current c
    rw [accepts_iff]
    simp

end EmbeddedRuntime.Firmware.Updates
