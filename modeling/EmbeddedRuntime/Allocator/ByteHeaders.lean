import EmbeddedRuntime.Allocator.Bytes
import EmbeddedRuntime.Allocator.HeapRun

/-!
# Headers in bytes and headers as records

`Follows sites before heap bytes` says that the bytes hold at each site the
header that the heap of records has there, and that no byte outside the headers
at these sites has changed.  Sites lie a header apart, so that a store to one
field of one header is the same store to its record.  Each function of the
allocator keeps the relation: every address it stores to is a site.
-/

set_option autoImplicit false

namespace EmbeddedRuntime.Allocator.Bytes

open EmbeddedRuntime.Allocator.Model
  (BlockHeader Heap alignment blockMagic headerSize alignedSize arenaTotal walkBefore walkFuel
    findFit adjacent)
open EmbeddedRuntime.Allocator.BlockList
open EmbeddedRuntime.Lib.ByteOrder EmbeddedRuntime.Lib.LinkedList EmbeddedRuntime.Lib.Tiling
open EmbeddedRuntime.Lib.Word64

/-! ## One header -/

/-- The value fits its field. -/
def Field.Fits (field : Field) : Prop := field.value < 256 ^ field.width

theorem fits_word {field : Field} (wide : field.width = 8) (small : field.value < 2 ^ 64) :
    field.Fits := by
  unfold Field.Fits
  rw [wide]
  omega

theorem fits_free (value : Bool) : (Field.free value).Fits := by
  unfold Field.Fits
  cases value <;> decide

theorem fits_size {value : Nat} (small : value < 2 ^ 64) : (Field.size value).Fits :=
  fits_word rfl small

theorem fits_add64 (left right : Nat) : (Field.size (add64 left right)).Fits := by
  refine fits_size ?_
  unfold add64
  omega

theorem fits_sub64 (left right : Nat) : (Field.size (sub64 left right)).Fits := by
  refine fits_size ?_
  unfold sub64
  omega

theorem fits_magic : (Field.magic blockMagic).Fits := by
  unfold Field.Fits
  decide

theorem set_bytes (heap : ByteHeap) (field : Field) {address other : Nat}
    (outside : other < address ∨ address + 40 ≤ other) :
    (heap.set address field).bytes other = heap.bytes other := by
  refine storeLittleEndian_outside _ _ ?_
  cases field <;> simp only [Field.offset, Field.width] <;> omega

/-- A header is read from its own bytes. -/
theorem header_congr {heap heap' : ByteHeap} {address : Nat}
    (agree : ∀ byte, address ≤ byte → byte < address + 40 → heap'.bytes byte = heap.bytes byte) :
    heap'.header address = heap.header address := by
  have same : ∀ offset width, offset + width ≤ 40 →
      littleEndian heap'.bytes (address + offset) width =
        littleEndian heap.bytes (address + offset) width := by
    intro offset width inside
    exact littleEndian_congr fun byte low high => agree byte (by omega) (by omega)
  have magic := same 0 8 (by omega)
  have size := same 8 8 (by omega)
  have free := same 16 4 (by omega)
  have prev := same 24 8 (by omega)
  have next := same 32 8 (by omega)
  unfold ByteHeap.header
  rw [Nat.add_zero] at magic
  rw [magic, size, free, prev, next]

theorem set_header_apart (heap : ByteHeap) (field : Field) {address other : Nat}
    (apart : other + 40 ≤ address ∨ address + 40 ≤ other) :
    (heap.set address field).header other = heap.header other :=
  header_congr fun byte low high => set_bytes heap field (by omega)

/-- A field that has been stored is loaded again, and the others are as before. -/
theorem set_header (heap : ByteHeap) (address : Nat) {field : Field} (fits : field.Fits) :
    (heap.set address field).header address = field.apply (heap.header address) := by
  have loaded : littleEndian (heap.set address field).bytes (address + field.offset) field.width =
      field.value := (littleEndian_store ..).trans (Nat.mod_eq_of_lt fits)
  have other : ∀ offset width,
      offset + width ≤ field.offset ∨ field.offset + field.width ≤ offset →
        littleEndian (heap.set address field).bytes (address + offset) width =
          littleEndian heap.bytes (address + offset) width :=
    fun offset width beside => littleEndian_store_apart _ _ (by omega)
  unfold ByteHeap.header
  cases field <;> simp only [Field.offset, Field.width] at other
  case magic value =>
    rw [other 16 4 (by decide)]
    exact BlockHeader.mk.injEq .. ▸ ⟨loaded, other 8 8 (by decide), rfl, other 24 8 (by decide),
      other 32 8 (by decide)⟩
  case size value =>
    rw [other 16 4 (by decide)]
    exact BlockHeader.mk.injEq .. ▸ ⟨other 0 8 (by decide), loaded, rfl, other 24 8 (by decide),
      other 32 8 (by decide)⟩
  case free value =>
    have flag : littleEndian (heap.set address (.free value)).bytes (address + 16) 4 =
        value.toNat := loaded
    rw [flag]
    refine BlockHeader.mk.injEq .. ▸ ⟨other 0 8 (by decide), other 8 8 (by decide), ?_,
      other 24 8 (by decide), other 32 8 (by decide)⟩
    cases value <;> rfl
  case prev value =>
    rw [other 16 4 (by decide)]
    exact BlockHeader.mk.injEq .. ▸ ⟨other 0 8 (by decide), other 8 8 (by decide), rfl, loaded,
      other 32 8 (by decide)⟩
  case next value =>
    rw [other 16 4 (by decide)]
    exact BlockHeader.mk.injEq .. ▸ ⟨other 0 8 (by decide), other 8 8 (by decide), rfl,
      other 24 8 (by decide), loaded⟩

/-! ## Many headers -/

/-- Addresses of headers. -/
structure Spaced (sites : List Nat) : Prop where
  inside : ∀ site ∈ sites, site < 2 ^ 64
  apart : ∀ site ∈ sites, ∀ other ∈ sites,
    other = site ∨ other + 40 ≤ site ∨ site + 40 ≤ other

structure Follows (sites : List Nat) (before : ByteHeap) (heap : Heap) (bytes : ByteHeap) :
    Prop where
  head : bytes.head = heap.head
  mappedBytes : bytes.mappedBytes = heap.mappedBytes
  arenas : bytes.arenas = heap.arenas
  headers : ∀ site ∈ sites, bytes.header site = heap.mem site
  rest : ∀ address, (∀ site ∈ sites, address < site ∨ site + 40 ≤ address) →
    bytes.bytes address = before.bytes address

theorem follows_view (sites : List Nat) (before : ByteHeap) :
    Follows sites before before.view before :=
  ⟨rfl, rfl, rfl, fun _ _ => rfl, fun _ _ => rfl⟩

/-- Null, or the address of a listed header. -/
def Linked (listed : List Nat) (address : Nat) : Prop := address = 0 ∨ address ∈ listed

/-- The links of the listed headers lead to listed headers. -/
structure Closed (listed : List Nat) (heap : Heap) : Prop where
  head : Linked listed heap.head
  prev : ∀ site ∈ listed, Linked listed (heap.mem site).prev
  next : ∀ site ∈ listed, Linked listed (heap.mem site).next

theorem first_linked (blocks : List Block) :
    Linked (blocks.map Block.addr) (blockLayout.first 0 blocks) := by
  cases blocks with
  | nil => exact Or.inl rfl
  | cons block rest => exact Or.inr (by simp [blockLayout])

theorem last_linked (blocks : List Block) :
    Linked (blocks.map Block.addr) (blockLayout.last 0 blocks) := by
  rcases List.eq_nil_or_concat blocks with rfl | ⟨init, last, rfl⟩
  · exact Or.inl rfl
  · refine Or.inr ?_
    rw [List.concat_eq_append, Layout.last_append_singleton]
    exact List.mem_map_of_mem (by simp)

theorem Linked.mono {listed sites : List Nat} (within : ∀ site ∈ listed, site ∈ sites)
    {address : Nat} (linked : Linked listed address) : Linked sites address :=
  linked.imp_right (within address)

theorem stores_closed {heap : Heap} {blocks : List Block} (stores : Stores heap blocks) :
    Closed (blocks.map Block.addr) heap := by
  have header : ∀ site ∈ blocks.map Block.addr, ∃ left block right,
      blocks = left ++ block :: right ∧ block.addr = site ∧
      heap.mem site = ⟨blockMagic, block.size, block.free, blockLayout.last 0 left,
        blockLayout.first 0 right⟩ := by
    intro site member
    obtain ⟨block, inside, rfl⟩ := List.mem_map.mp member
    obtain ⟨left, right, rfl⟩ := List.append_of_mem inside
    exact ⟨left, block, right, rfl, rfl, stores.header⟩
  refine ⟨?_, ?_, ?_⟩
  · rw [stores.head]
    exact first_linked blocks
  · intro site member
    obtain ⟨left, block, right, rfl, -, here⟩ := header site member
    rw [here]
    exact (last_linked left).mono fun address inside => by
      rw [List.map_append]
      exact List.mem_append_left _ inside
  · intro site member
    obtain ⟨left, block, right, rfl, -, here⟩ := header site member
    rw [here]
    exact (first_linked right).mono fun address inside => by
      rw [List.map_append, List.map_cons]
      exact List.mem_append_right _ (List.mem_cons_of_mem _ inside)

theorem spaced_of_apart {blocks : List Block} (apart : Apart blockShape blocks) :
    Spaced (blocks.map Block.addr) where
  inside site member := by
    obtain ⟨block, -, rfl⟩ := List.mem_map.mp member
    have ends := block.inside
    omega
  apart site member other member' := by
    obtain ⟨block, inside, rfl⟩ := List.mem_map.mp member
    obtain ⟨block', inside', rfl⟩ := List.mem_map.mp member'
    have wide := block_lt_stop block
    have wide' := block_lt_stop block'
    rcases apart.sides inside inside' with rfl | before | after
    · exact Or.inl rfl
    · change block.stop ≤ block'.addr at before
      exact Or.inr (Or.inr (by omega))
    · change block'.stop ≤ block.addr at after
      exact Or.inr (Or.inl (by omega))

end EmbeddedRuntime.Allocator.Bytes
