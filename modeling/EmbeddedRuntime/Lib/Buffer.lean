import Mathlib.Data.List.GetD

/-!
# Byte buffers as lists

`readAt` and `writeAt` are the two halves of a bounded memory copy: a block of
cells read from, or stored into, a buffer at an offset.  The lemmas say that a
write inside the buffer keeps its length, is read back, and leaves every
disjoint block alone.
-/

set_option autoImplicit false

namespace EmbeddedRuntime.Lib.Buffer

universe u
variable {Cell : Type u}

def readAt (buffer : List Cell) (offset count : Nat) : List Cell :=
  (buffer.drop offset).take count

def writeAt (buffer : List Cell) (offset : Nat) (cells : List Cell) : List Cell :=
  buffer.take offset ++ cells ++ buffer.drop (offset + cells.length)

theorem length_writeAt (buffer : List Cell) (offset : Nat) (cells : List Cell)
    (inside : offset + cells.length ≤ buffer.length) :
    (writeAt buffer offset cells).length = buffer.length := by
  simp only [writeAt, List.length_append, List.length_take, List.length_drop]
  omega

theorem getElem?_readAt (buffer : List Cell) (offset count index : Nat) :
    (readAt buffer offset count)[index]? =
      if index < count then buffer[offset + index]? else none := by
  simp only [readAt, List.getElem?_take, List.getElem?_drop]

theorem getElem?_writeAt (buffer : List Cell) (offset : Nat) (cells : List Cell)
    (index : Nat) (inside : offset + cells.length ≤ buffer.length) :
    (writeAt buffer offset cells)[index]? =
      if offset ≤ index ∧ index < offset + cells.length then cells[index - offset]?
      else buffer[index]? := by
  have takeLength : (buffer.take offset).length = offset := by
    rw [List.length_take]
    omega
  by_cases before : index < offset
  · rw [if_neg (by omega), writeAt, List.append_assoc,
      List.getElem?_append_left (by omega), List.getElem?_take, if_pos before]
  · by_cases within : index < offset + cells.length
    · rw [if_pos ⟨by omega, within⟩, writeAt,
        List.getElem?_append_left (by simp only [List.length_append]; omega),
        List.getElem?_append_right (by omega), takeLength]
    · rw [if_neg (by omega), writeAt,
        List.getElem?_append_right (by simp only [List.length_append]; omega)]
      simp only [List.length_append, takeLength, List.getElem?_drop]
      congr 1
      omega

theorem readAt_writeAt_same (buffer : List Cell) (offset : Nat) (cells : List Cell)
    (inside : offset + cells.length ≤ buffer.length) :
    readAt (writeAt buffer offset cells) offset cells.length = cells := by
  apply List.ext_getElem?
  intro index
  rw [getElem?_readAt, getElem?_writeAt _ _ _ _ inside]
  by_cases within : index < cells.length
  · rw [if_pos within, if_pos ⟨by omega, by omega⟩]
    congr 1
    omega
  · rw [if_neg within, List.getElem?_eq_none (by omega)]

theorem readAt_writeAt_disjoint (buffer : List Cell) (offset : Nat) (cells : List Cell)
    (start count : Nat) (inside : offset + cells.length ≤ buffer.length)
    (disjoint : start + count ≤ offset ∨ offset + cells.length ≤ start) :
    readAt (writeAt buffer offset cells) start count = readAt buffer start count := by
  apply List.ext_getElem?
  intro index
  rw [getElem?_readAt, getElem?_readAt, getElem?_writeAt _ _ _ _ inside]
  by_cases within : index < count
  · rw [if_pos within, if_pos within, if_neg (by omega)]
  · rw [if_neg within, if_neg within]

/-- A block spelled cell by cell. -/
theorem readAt_eq_map (buffer : List Cell) (offset count : Nat) (default : Cell)
    (inside : offset + count ≤ buffer.length) :
    readAt buffer offset count =
      (List.range count).map fun index => buffer.getD (offset + index) default := by
  apply List.ext_getElem?
  intro index
  rw [getElem?_readAt, List.getElem?_map]
  by_cases within : index < count
  · rw [if_pos within, List.getElem?_range within, Option.map_some,
      List.getElem?_eq_getElem (by omega), List.getD_eq_getElem _ _ (by omega)]
  · rw [if_neg within, List.getElem?_eq_none (by rw [List.length_range]; omega)]
    rfl

theorem readAt_add (buffer : List Cell) (offset first second : Nat) :
    readAt buffer offset (first + second) =
      readAt buffer offset first ++ readAt buffer (offset + first) second := by
  simp only [readAt, List.take_add, List.drop_drop]

theorem readAt_all (buffer : List Cell) : readAt buffer 0 buffer.length = buffer := by
  simp [readAt]

/-- Filling a buffer from the front: a write right after the part already
filled extends it. -/
theorem writeAt_append (filled rest : List Cell) (offset : Nat) (cells : List Cell)
    (here : filled.length = offset) :
    writeAt (filled ++ rest) offset cells = filled ++ cells ++ rest.drop cells.length := by
  subst here
  simp [writeAt, List.drop_append, List.append_assoc]

theorem writeAt_nil (buffer : List Cell) (offset : Nat) : writeAt buffer offset [] = buffer := by
  simp [writeAt]

/-- Two writes one after the other are one. -/
theorem writeAt_adjacent (buffer first second : List Cell) (offset : Nat)
    (inside : offset ≤ buffer.length) :
    writeAt (writeAt buffer offset first) (offset + first.length) second =
      writeAt buffer offset (first ++ second) := by
  have filled : (buffer.take offset ++ first).length = offset + first.length := by
    rw [List.length_append, List.length_take, Nat.min_eq_left inside]
  show writeAt (buffer.take offset ++ first ++ buffer.drop (offset + first.length)) _ second = _
  rw [writeAt_append _ _ _ _ filled]
  simp [writeAt, Nat.add_assoc, List.append_assoc]

/-- A cell outside a block is not part of it. -/
theorem readAt_set_outside (buffer : List Cell) (index : Nat) (cell : Cell) (offset count : Nat)
    (outside : index < offset ∨ offset + count ≤ index) :
    readAt (buffer.set index cell) offset count = readAt buffer offset count := by
  apply List.ext_getElem?
  intro place
  rw [getElem?_readAt, getElem?_readAt]
  by_cases within : place < count
  · rw [if_pos within, if_pos within, List.getElem?_set_ne (by omega)]
  · rw [if_neg within, if_neg within]

/-- A block is changed with any of its cells. -/
theorem readAt_set_inside (buffer : List Cell) (index : Nat) (cell : Cell) (offset count : Nat)
    (within : offset ≤ index ∧ index < offset + count) (inside : index < buffer.length)
    (differ : buffer[index] ≠ cell) :
    readAt (buffer.set index cell) offset count ≠ readAt buffer offset count := by
  intro same
  have here := congrArg (fun block : List Cell => block[index - offset]?) same
  simp only [getElem?_readAt, if_pos (show index - offset < count by omega),
    Nat.add_sub_cancel' within.1, List.getElem?_set_self inside,
    List.getElem?_eq_getElem inside] at here
  exact differ (Option.some.inj here).symm

end EmbeddedRuntime.Lib.Buffer
