import EmbeddedRuntime.Loader.Model

/-!
# The arithmetic of `map_one_segment`

Pages are powers of two, so masking is rounding down and a rounded size is a
multiple of the page, also where a sum has wrapped: then it is zero or one page.
-/

set_option autoImplicit false

namespace EmbeddedRuntime.Loader.Layout

open EmbeddedRuntime.Common
open EmbeddedRuntime.Elf.Image
open EmbeddedRuntime.Lib.AddressSpace
open EmbeddedRuntime.Lib.Word64
open EmbeddedRuntime.Loader.Model

variable (kernel : Kernel)

theorem page_pos : 0 < kernel.page := Nat.two_pow_pos _

theorem page_le : kernel.page ≤ 2 ^ 62 := Nat.pow_le_pow_right (by decide) kernel.pageSmall

/-- The address space is a whole number of pages. -/
theorem page_dvd : kernel.page ∣ 2 ^ 64 :=
  Nat.pow_dvd_pow 2 (Nat.le_trans kernel.pageSmall (by decide))

/-- Masking the low bits off is rounding down. -/
theorem maskOff_eq (value : Nat) (small : value < 2 ^ 64) :
    kernel.maskOff value = value - value % kernel.page := by
  have split := Nat.div_add_mod value kernel.page
  have down : value - value % kernel.page = 2 ^ kernel.pageBits * (value / 2 ^ kernel.pageBits) := by
    change _ = kernel.page * (value / kernel.page)
    omega
  have mask : 2 ^ 64 - 1 - (kernel.page - 1) = 2 ^ 64 - ((kernel.page - 1) + 1) := by omega
  have below : kernel.page - 1 < 2 ^ 64 := Nat.lt_of_le_of_lt (Nat.sub_le _ _)
    (Nat.lt_of_le_of_lt (page_le kernel) (by decide))
  rw [down, Kernel.maskOff, mask]
  apply Nat.eq_of_testBit_eq
  intro i
  rw [Nat.testBit_and, Nat.testBit_two_pow_sub_succ below, Kernel.page,
    Nat.testBit_two_pow_sub_one, Nat.testBit_two_pow_mul]
  by_cases low : i < kernel.pageBits
  · simp [low, Nat.not_le.mpr low]
  · have shifted : i - kernel.pageBits + kernel.pageBits = i := by omega
    rw [Nat.testBit_div_two_pow, shifted]
    by_cases high : i < 64
    · simp [low, high]
      omega
    · have clear : value.testBit i = false := Nat.testBit_lt_two_pow
        (Nat.lt_of_lt_of_le small (Nat.pow_le_pow_right (by decide) (by omega)))
      simp [clear]

theorem pages_of_dvd (addr length : Nat) (whole : kernel.page ∣ length) :
    kernel.pages addr length = ⟨addr, length⟩ := by
  obtain ⟨count, rfl⟩ := whole
  have positive := page_pos kernel
  have exact_ : (kernel.page * count + kernel.page - 1) / kernel.page = count := by
    rw [Nat.add_sub_assoc positive, Nat.mul_add_div positive,
      Nat.div_eq_of_lt (by omega), Nat.add_zero]
  rw [Kernel.pages, exact_, Nat.mul_comm]

theorem roundUp_fits (value : Nat) (room : value + kernel.page ≤ 2 ^ 64) :
    kernel.page ∣ mlrtRoundUp value kernel.page ∧ value ≤ mlrtRoundUp value kernel.page ∧
      mlrtRoundUp value kernel.page < value + kernel.page := by
  have positive := page_pos kernel
  by_cases last : value + kernel.page < 2 ^ 64
  · exact mlrtRoundUp_spec value kernel.page positive last
  · have whole : kernel.page ∣ value :=
      (Nat.dvd_add_left (Nat.dvd_refl _)).mp (by
        rw [show value + kernel.page = 2 ^ 64 by omega]
        exact page_dvd kernel)
    have same : mlrtRoundUp value kernel.page = value := by
      rw [mlrtRoundUp, if_neg (by omega), if_neg (not_not.mpr (Nat.mod_eq_zero_of_dvd whole))]
    rw [same]
    exact ⟨whole, Nat.le_refl _, by omega⟩

/-- Rounding up a value in the last page wraps to zero. -/
theorem roundUp_wraps (value : Nat) (word : value < 2 ^ 64) (last : 2 ^ 64 < value + kernel.page) :
    mlrtRoundUp value kernel.page = 0 := by
  have positive := page_pos kernel
  have small := page_le kernel
  obtain ⟨count, pages⟩ := page_dvd kernel
  have split := Nat.div_add_mod value kernel.page
  have rest := Nat.mod_lt value positive
  have quotient : value / kernel.page + 1 = count := by
    have lower : kernel.page * (value / kernel.page) < kernel.page * count := by omega
    have upper : kernel.page * count < kernel.page * (value / kernel.page + 2) := by
      rw [Nat.mul_add]
      omega
    have less := Nat.lt_of_mul_lt_mul_left lower
    have more := Nat.lt_of_mul_lt_mul_left upper
    omega
  have next : kernel.page * (value / kernel.page) + kernel.page = 2 ^ 64 := by
    rw [pages, ← quotient, Nat.mul_add, Nat.mul_one]
  rw [mlrtRoundUp, if_neg (by omega), if_pos (by omega), add64]
  have whole : value + (kernel.page - value % kernel.page) = 2 ^ 64 := by omega
  rw [whole, Nat.mod_self]

/-- What a rounded size is, with and without wraparound. -/
theorem total_cases (delta size : Nat) (low : delta < kernel.page) (word : size < 2 ^ 64) :
    kernel.page ∣ mlrtRoundUp (add64 delta size) kernel.page ∧
      (delta + size + kernel.page ≤ 2 ^ 64 ∧
          delta + size ≤ mlrtRoundUp (add64 delta size) kernel.page ∧
          mlrtRoundUp (add64 delta size) kernel.page < delta + size + kernel.page ∨
        2 ^ 64 < delta + size + kernel.page ∧ delta + size ≤ 2 ^ 64 ∧
          mlrtRoundUp (add64 delta size) kernel.page = 0 ∨
        2 ^ 64 < delta + size ∧ mlrtRoundUp (add64 delta size) kernel.page = kernel.page) := by
  have small := page_le kernel
  by_cases fits : delta + size < 2 ^ 64
  · rw [add64_of_lt fits]
    by_cases room : delta + size + kernel.page ≤ 2 ^ 64
    · obtain ⟨whole, above, below⟩ := roundUp_fits kernel (delta + size) room
      exact ⟨whole, Or.inl ⟨room, above, below⟩⟩
    · have zero := roundUp_wraps kernel (delta + size) fits (by omega)
      rw [zero]
      exact ⟨Nat.dvd_zero _, Or.inr (Or.inl ⟨by omega, by omega, rfl⟩)⟩
  · have wrapped : add64 delta size = delta + size - 2 ^ 64 := by
      unfold add64
      omega
    rw [wrapped]
    obtain ⟨whole, above, below⟩ := roundUp_fits kernel (delta + size - 2 ^ 64) (by omega)
    by_cases exact_ : delta + size = 2 ^ 64
    · have zero : mlrtRoundUp (delta + size - 2 ^ 64) kernel.page = 0 := by
        rw [exact_, Nat.sub_self]
        simp [mlrtRoundUp]
      rw [zero]
      exact ⟨Nat.dvd_zero _, Or.inr (Or.inl ⟨by omega, by omega, rfl⟩)⟩
    · -- the wrapped sum is inside the first page
      have one : mlrtRoundUp (delta + size - 2 ^ 64) kernel.page = kernel.page := by
        obtain ⟨count, same⟩ := whole
        rw [same] at above below ⊢
        obtain rfl : count = 1 := by
          have lower : 0 < count := by
            rcases Nat.eq_zero_or_pos count with rfl | positive
            · omega
            · exact positive
          have upper : count < 2 := by
            by_contra large
            have twice : kernel.page * 2 ≤ kernel.page * count :=
              Nat.mul_le_mul_left _ (by omega)
            omega
          omega
        exact Nat.mul_one _
      rw [one]
      exact ⟨Nat.dvd_refl _, Or.inr (Or.inr ⟨by omega, rfl⟩)⟩

/-! ## The layout of a segment -/

/-- The fields are 64-bit words. -/
structure Words (p : Phdr) : Prop where
  offset : p.offset < 2 ^ 64
  vaddr : p.vaddr < 2 ^ 64
  filesz : p.filesz < 2 ^ 64
  memsz : p.memsz < 2 ^ 64

theorem words_phdr (image : ElfImage) (index : Nat) : Words (image.phdr index) := by
  obtain ⟨offset, vaddr, filesz, memsz⟩ := image.phdr_lt index
  exact ⟨offset, vaddr, filesz, memsz⟩

variable {p : Phdr}

theorem layout_mapVaddr (words : Words p) :
    (layout kernel p).mapVaddr = p.vaddr - p.vaddr % kernel.page :=
  maskOff_eq kernel p.vaddr words.vaddr

theorem layout_mapOffset (words : Words p) :
    (layout kernel p).mapOffset = p.offset - p.offset % kernel.page :=
  maskOff_eq kernel p.offset words.offset

theorem layout_delta (words : Words p) : (layout kernel p).delta = p.vaddr % kernel.page := by
  change sub64 p.vaddr (layout kernel p).mapVaddr = _
  have below := Nat.mod_le p.vaddr kernel.page
  rw [layout_mapVaddr kernel words, sub64_of_le (Nat.sub_le _ _) words.vaddr]
  omega

theorem delta_lt (words : Words p) : (layout kernel p).delta < kernel.page := by
  rw [layout_delta kernel words]
  exact Nat.mod_lt _ (page_pos kernel)

theorem mapVaddr_add_delta (words : Words p) :
    (layout kernel p).mapVaddr + (layout kernel p).delta = p.vaddr := by
  have below := Nat.mod_le p.vaddr kernel.page
  rw [layout_mapVaddr kernel words, layout_delta kernel words]
  omega

theorem page_dvd_mapVaddr (words : Words p) : kernel.page ∣ (layout kernel p).mapVaddr := by
  rw [layout_mapVaddr kernel words]
  exact Nat.dvd_sub_mod _

/-- The size of the whole segment, with and without wraparound. -/
theorem memTotal_cases (words : Words p) :
    kernel.page ∣ (layout kernel p).memTotal ∧
      ((layout kernel p).delta + p.memsz + kernel.page ≤ 2 ^ 64 ∧
          (layout kernel p).delta + p.memsz ≤ (layout kernel p).memTotal ∧
          (layout kernel p).memTotal < (layout kernel p).delta + p.memsz + kernel.page ∨
        2 ^ 64 < (layout kernel p).delta + p.memsz + kernel.page ∧
          (layout kernel p).delta + p.memsz ≤ 2 ^ 64 ∧ (layout kernel p).memTotal = 0 ∨
        2 ^ 64 < (layout kernel p).delta + p.memsz ∧
          (layout kernel p).memTotal = kernel.page) :=
  total_cases kernel (layout kernel p).delta p.memsz (delta_lt kernel words) words.memsz

/-- The size of the file-backed part, with and without wraparound. -/
theorem fileTotal_cases (words : Words p) :
    kernel.page ∣ (layout kernel p).fileTotal ∧
      (p.filesz = 0 ∧ (layout kernel p).fileTotal = 0 ∨
        p.filesz ≠ 0 ∧ (layout kernel p).delta + p.filesz + kernel.page ≤ 2 ^ 64 ∧
          (layout kernel p).delta + p.filesz ≤ (layout kernel p).fileTotal ∧
          (layout kernel p).fileTotal < (layout kernel p).delta + p.filesz + kernel.page ∨
        2 ^ 64 < (layout kernel p).delta + p.filesz + kernel.page ∧
          (layout kernel p).delta + p.filesz ≤ 2 ^ 64 ∧ (layout kernel p).fileTotal = 0 ∨
        2 ^ 64 < (layout kernel p).delta + p.filesz ∧
          (layout kernel p).fileTotal = kernel.page) := by
  by_cases empty : p.filesz = 0
  · have none : (layout kernel p).fileTotal = 0 := if_neg (not_not.mpr empty)
    rw [none]
    exact ⟨Nat.dvd_zero _, Or.inl ⟨empty, rfl⟩⟩
  · have total : (layout kernel p).fileTotal =
        mlrtRoundUp (add64 (layout kernel p).delta p.filesz) kernel.page := if_pos empty
    rw [total]
    obtain ⟨whole, cases⟩ :=
      total_cases kernel (layout kernel p).delta p.filesz (delta_lt kernel words) words.filesz
    refine ⟨whole, Or.inr ?_⟩
    obtain ⟨room, above, below⟩ | wraps := cases
    · exact Or.inl ⟨empty, room, above, below⟩
    · exact Or.inr wraps

theorem page_dvd_memTotal (words : Words p) : kernel.page ∣ (layout kernel p).memTotal :=
  (memTotal_cases kernel words).1

theorem page_dvd_fileTotal (words : Words p) : kernel.page ∣ (layout kernel p).fileTotal :=
  (fileTotal_cases kernel words).1

theorem page_dvd_tail (words : Words p) :
    kernel.page ∣ (layout kernel p).memTotal - (layout kernel p).fileTotal :=
  Nat.dvd_sub (page_dvd_memTotal kernel words) (page_dvd_fileTotal kernel words)

/-- Where the zeroed bytes begin and end, given the file's pages are mapped. -/
theorem zeroRange_bounds (words : Words p) (mapped : (layout kernel p).fileTotal ≠ 0)
    (low : (layout kernel p).mapVaddr + (layout kernel p).fileTotal ≤ 2 ^ 63) :
    (layout kernel p).mapVaddr ≤ (zeroRange (layout kernel p) p).addr ∧
      ((zeroRange (layout kernel p) p).length ≠ 0 →
        (zeroRange (layout kernel p) p).addr + (zeroRange (layout kernel p) p).length ≤
          (layout kernel p).mapVaddr + (layout kernel p).fileTotal) := by
  have split := mapVaddr_add_delta kernel words
  have page := delta_lt kernel words
  have word := words.filesz
  have small := page_le kernel
  obtain ⟨-, cases⟩ := fileTotal_cases kernel words
  have pageEnd : add64 (layout kernel p).mapVaddr (layout kernel p).fileTotal =
      (layout kernel p).mapVaddr + (layout kernel p).fileTotal := add64_of_lt (by omega)
  constructor
  · change _ ≤ add64 p.vaddr p.filesz
    unfold add64
    omega
  · intro zeroed
    have ended : zeroEnd (layout kernel p) p ≤ add64 (layout kernel p).mapVaddr
        (layout kernel p).fileTotal := by
      unfold zeroEnd
      dsimp only
      split <;> omega
    simp only [zeroRange] at zeroed ⊢
    split at zeroed
    next nonempty =>
      rw [if_pos nonempty]
      omega
    · exact absurd rfl zeroed

/-- The bytes that are zeroed lie in the file's pages, wraparound or not. -/
theorem zeroRange_within (words : Words p) (mapped : (layout kernel p).fileTotal ≠ 0)
    (low : (layout kernel p).mapVaddr + (layout kernel p).fileTotal ≤ 2 ^ 63) (a : Nat)
    (inside : (zeroRange (layout kernel p) p).Contains a) : (fileRange kernel p).Contains a := by
  obtain ⟨start, stop⟩ := zeroRange_bounds kernel words mapped low
  obtain ⟨above, below⟩ := inside
  have ended := stop (by omega)
  exact ⟨Nat.le_trans start above, Nat.lt_of_lt_of_le below ended⟩

end EmbeddedRuntime.Loader.Layout
