import EmbeddedRuntime.Common
import EmbeddedRuntime.Elf.Readers
import EmbeddedRuntime.Lib.AddressSpace

/-!
# The static loader: `loader/loader.c`

The process is its memory, cell by cell, and the number of calls made so far.  The
kernel is a parameter: its page size, the end of the user address space, and for
each call whether it refuses although nothing documented forbids it.  `mmap`,
`mprotect` and `munmap` do what their manual pages say; a write to memory that is
not mapped writable ends the process.
-/

set_option autoImplicit false

namespace EmbeddedRuntime.Loader.Model

open EmbeddedRuntime.Common
open EmbeddedRuntime.Elf.Image
open EmbeddedRuntime.Elf.Readers
open EmbeddedRuntime.Lib.AddressSpace
open EmbeddedRuntime.Lib.ReadLog
open EmbeddedRuntime.Lib.Word64

/-! ## The kernel -/

structure Prot where
  read : Bool
  write : Bool
  exec : Bool
  deriving DecidableEq, Repr

structure Cell where
  byte : UInt8
  prot : Prot
  deriving DecidableEq, Repr

structure Kernel where
  /-- The page size is `2 ^ pageBits`. -/
  pageBits : Nat
  pageSmall : pageBits ≤ 62
  /-- The end of the user address space. -/
  limit : Nat
  limitSmall : limit ≤ 2 ^ 63
  /-- The `errno` with which call number `n` is refused, if it is. -/
  refuses : Nat → Option Nat

/-- `sysconf(_SC_PAGESIZE)`. -/
def Kernel.page (kernel : Kernel) : Nat := 2 ^ kernel.pageBits

/-- The kernel works on whole pages. -/
def Kernel.pages (kernel : Kernel) (addr length : Nat) : Range where
  addr := addr
  length := (length + kernel.page - 1) / kernel.page * kernel.page

/-- What backs a mapping. -/
inductive Source where
  | file (offset : Nat)
  | anonymous
  deriving DecidableEq, Repr

def eexist : Nat := 17
def einval : Nat := 22
def enomem : Nat := 12
def eoverflow : Nat := 75

/-- A file offset is a whole number of pages and the mapping ends where `off_t` does. -/
def Kernel.offsetErrno (kernel : Kernel) (length : Nat) : Source → Option Nat
  | .file offset =>
    if offset % kernel.page ≠ 0 then some einval
    else if 2 ^ 63 < offset + length then some eoverflow
    else none
  | .anonymous => none

/-- The documented reasons for `mmap` to fail at a fixed address. -/
def Kernel.mmapErrno (kernel : Kernel) (mem : Memory Cell) (call : Nat) (range : Range)
    (source : Source) (replace : Bool) : Option Nat :=
  if range.length = 0 ∨ range.addr % kernel.page ≠ 0 then some einval
  else if kernel.limit < range.addr + range.length then some enomem
  else
    match kernel.offsetErrno range.length source with
    | some errno => some errno
    | none =>
      if replace = false ∧ ¬ mem.Free range then some eexist
      else kernel.refuses call

/-- A byte of a file mapping: past the end of the file its last page holds zeros.
The pages behind that one would fault; `ImageMemory.mapped_pages_reach_file` says
that the loader maps none of them. -/
def fileByte (file : File) (offset : Nat) : UInt8 :=
  if offset < file.size then file.data offset else 0

def mappedCell (file : File) (range : Range) (source : Source) (prot : Prot) (a : Nat) : Cell :=
  match source with
  | .file offset => { byte := fileByte file (offset + (a - range.addr)), prot }
  | .anonymous => { byte := 0, prot }

/-! ## The loader's state -/

abbrev LoaderMapping := Range

structure LoaderMappingList where
  items : List LoaderMapping := []
  cap : Nat := 0
  deriving DecidableEq, Repr

structure LoaderState where
  mem : Memory Cell
  calls : Nat
  mappings : LoaderMappingList

inductive LoadError where
  | notExec (type : Nat)
  | interp
  | fileszExceedsMemsz
  | fileRange
  | notCongruent
  | notAligned
  | mmapFile (addr errno : Nat)
  | trackMapping
  | mprotect (errno : Nat)
  | mmapAnonymous (addr errno : Nat)
  | trackBss
  deriving DecidableEq, Repr

def hex (value : Nat) : String := "0x" ++ String.ofList (Nat.toDigits 16 value)

def LoadError.message (strerror : Nat → String) : LoadError → String
  | .notExec type => "static loader expects ET_EXEC; got " ++ elfTypeName type
  | .interp =>
    "PT_INTERP present: dynamically linked executables are intentionally unsupported"
  | .fileszExceedsMemsz => "PT_LOAD has p_filesz > p_memsz"
  | .fileRange => "PT_LOAD file range exceeds ELF file size"
  | .notCongruent => "PT_LOAD p_vaddr/p_offset are not page-congruent"
  | .notAligned => "aligned file offset is not page aligned"
  | .mmapFile addr errno =>
    "mmap file-backed PT_LOAD at " ++ hex addr ++ " failed: " ++ strerror errno
  | .trackMapping => "out of memory tracking loader mappings"
  | .mprotect errno => "mprotect PT_LOAD failed: " ++ strerror errno
  | .mmapAnonymous addr errno =>
    "mmap anonymous BSS tail at " ++ hex addr ++ " failed: " ++ strerror errno
  | .trackBss => "out of memory tracking BSS mapping"

/-- How a part of the loader ends: with 0, with -1, or the process is killed. -/
inductive Run where
  | ok (state : LoaderState)
  | error (failure : LoadError) (state : LoaderState)
  | fault

def Run.andThen (run : Run) (next : LoaderState → Run) : Run :=
  match run with
  | .ok state => next state
  | .error failure state => .error failure state
  | .fault => .fault

def LoaderState.tick (state : LoaderState) : LoaderState := { state with calls := state.calls + 1 }

/-- `mmap` at a fixed address: the `errno`, or the memory with the mapping. -/
def mmap (kernel : Kernel) (file : File) (range : Range) (source : Source) (prot : Prot)
    (replace : Bool) (state : LoaderState) : Option Nat × LoaderState :=
  let pages := kernel.pages range.addr range.length
  match kernel.mmapErrno state.mem state.calls pages source replace with
  | some errno => (some errno, state.tick)
  | none =>
    (none, { state.tick with mem := state.mem.place pages (mappedCell file pages source prot) })

def munmap (kernel : Kernel) (range : Range) (state : LoaderState) : LoaderState :=
  { state with mem := state.mem.remove (kernel.pages range.addr range.length) }

def mprotect (kernel : Kernel) (range : Range) (prot : Prot) (state : LoaderState) :
    Option Nat × LoaderState :=
  match kernel.refuses state.calls with
  | some errno => (some errno, state.tick)
  | none =>
    (none, { state.tick with
      mem := state.mem.change (kernel.pages range.addr range.length) fun cell =>
        { cell with prot } })

/-- Every address of the range can be written. -/
def Writable (mem : Memory Cell) (range : Range) : Prop :=
  ∀ a, range.Contains a → (mem a).any (fun cell => cell.prot.write) = true

instance (mem : Memory Cell) (range : Range) : Decidable (Writable mem range) :=
  range.decidableForall (fun a => (mem a).any (fun cell => cell.prot.write) = true)
    fun _ => instDecidableEqBool _ _

/-- `memset` to zero; `none` is the fault. -/
def memset (range : Range) (state : LoaderState) : Option LoaderState :=
  if Writable state.mem range then
    some { state with mem := state.mem.change range fun cell => { cell with byte := 0 } }
  else none

/-! ## `add_mapping` and `loader_unmap_all` -/

/-- The list with the mapping, unless `realloc` fails to grow it. -/
def addMapping (kernel : Kernel) (mapping : LoaderMapping) (state : LoaderState) :
    Bool × LoaderState :=
  let list := state.mappings
  if list.items.length = list.cap then
    match kernel.refuses state.calls with
    | some _ => (false, state.tick)
    | none =>
      (true, { state.tick with
        mappings :=
          { items := list.items ++ [mapping], cap := if list.cap ≠ 0 then list.cap * 2 else 8 } })
  else (true, { state with mappings := { list with items := list.items ++ [mapping] } })

def loaderUnmapAll (kernel : Kernel) (state : LoaderState) : LoaderState :=
  { state with
    mem := state.mem.removeAll
      (state.mappings.items.map fun mapping => kernel.pages mapping.addr mapping.length)
    mappings := {} }

/-! ## `map_one_segment` -/

/-- `PF_R`, `PF_W` and `PF_X` are the bits 2, 1 and 0. -/
def flagsToProt (flags : Nat) : Prot where
  read := flags.testBit 2
  write := flags.testBit 1
  exec := flags.testBit 0

/-- `value & ~page_mask`. -/
def Kernel.maskOff (kernel : Kernel) (value : Nat) : Nat :=
  value &&& (2 ^ 64 - 1 - (kernel.page - 1))

/-- The addresses and sizes `map_one_segment` computes from a header. -/
structure Layout where
  mapVaddr : Nat
  mapOffset : Nat
  delta : Nat
  memTotal : Nat
  fileTotal : Nat
  deriving DecidableEq, Repr

def layout (kernel : Kernel) (p : Phdr) : Layout :=
  let mapVaddr := kernel.maskOff p.vaddr
  let delta := sub64 p.vaddr mapVaddr
  { mapVaddr
    mapOffset := kernel.maskOff p.offset
    delta
    memTotal := mlrtRoundUp (add64 delta p.memsz) kernel.page
    fileTotal := if p.filesz ≠ 0 then mlrtRoundUp (add64 delta p.filesz) kernel.page else 0 }

/-- The checks before the first call. -/
def segmentError (kernel : Kernel) (file : File) (p : Phdr) : Option LoadError :=
  let l := layout kernel p
  if p.filesz > p.memsz then some .fileszExceedsMemsz
  else if add64 p.offset p.filesz > file.size then some .fileRange
  else if sub64 p.offset l.mapOffset ≠ l.delta then some .notCongruent
  else if l.mapOffset % kernel.page ≠ 0 then some .notAligned
  else none

def zeroEnd (l : Layout) (p : Phdr) : Nat :=
  let filePageEnd := add64 l.mapVaddr l.fileTotal
  let memEnd := add64 p.vaddr p.memsz
  if memEnd < filePageEnd then memEnd else filePageEnd

/-- The bytes behind the file's part of its last page that belong to the segment. -/
def zeroRange (l : Layout) (p : Phdr) : Range :=
  let bssStart := add64 p.vaddr p.filesz
  { addr := bssStart
    length :=
      if p.memsz > p.filesz ∧ zeroEnd l p > bssStart then zeroEnd l p - bssStart else 0 }

/-- The pages of the file-backed part of a segment. -/
def fileRange (kernel : Kernel) (p : Phdr) : Range :=
  ⟨(layout kernel p).mapVaddr, (layout kernel p).fileTotal⟩

/-- The pages of the anonymous part behind it. -/
def anonymousRange (kernel : Kernel) (p : Phdr) : Range :=
  ⟨add64 (layout kernel p).mapVaddr (layout kernel p).fileTotal,
    (layout kernel p).memTotal - (layout kernel p).fileTotal⟩

/-- The file-backed part of a segment. -/
def mapFile (kernel : Kernel) (file : File) (p : Phdr) (forceFixed : Bool) (state : LoaderState) :
    Run :=
  let l := layout kernel p
  let range := fileRange kernel p
  let finalProt := flagsToProt p.flags
  if l.fileTotal = 0 then .ok state
  else
    match mmap kernel file range (.file l.mapOffset) { finalProt with write := true } forceFixed
        state with
    | (some errno, state) => .error (.mmapFile l.mapVaddr errno) state
    | (none, state) =>
      match addMapping kernel range state with
      | (false, state) => .error .trackMapping (munmap kernel range state)
      | (true, state) =>
        match memset (zeroRange l p) state with
        | none => .fault
        | some state =>
          match mprotect kernel range finalProt state with
          | (some errno, state) => .error (.mprotect errno) state
          | (none, state) => .ok state

/-- The anonymous part of a segment. -/
def mapAnonymous (kernel : Kernel) (file : File) (p : Phdr) (forceFixed : Bool)
    (state : LoaderState) : Run :=
  let l := layout kernel p
  let range := anonymousRange kernel p
  if l.memTotal > l.fileTotal then
    match mmap kernel file range .anonymous (flagsToProt p.flags) forceFixed state with
    | (some errno, state) => .error (.mmapAnonymous range.addr errno) state
    | (none, state) =>
      match addMapping kernel range state with
      | (false, state) => .error .trackBss (munmap kernel range state)
      | (true, state) => .ok state
  else .ok state

def mapOneSegment (kernel : Kernel) (file : File) (p : Phdr) (forceFixed : Bool)
    (state : LoaderState) : Run :=
  match segmentError kernel file p with
  | some failure => .error failure state
  | none =>
    (mapFile kernel file p forceFixed state).andThen (mapAnonymous kernel file p forceFixed)

/-! ## `loader_map_image` -/

def imageHasInterp (image : ElfImage) : Reading Bool := do
  let found ← firstSome
    (fun index => do
      let p ← readPhdr image index
      if p.type = ptInterp then return some () else return none)
    (List.range image.header.phnum)
  return found.isSome

/-- The header is mapped by the loop of `loader_map_image`. -/
def loads (p : Phdr) : Prop := p.type = ptLoad ∧ p.memsz ≠ 0

instance (p : Phdr) : Decidable (loads p) := inferInstanceAs (Decidable (_ ∧ _))

def mapSegments (kernel : Kernel) (image : ElfImage) (forceFixed : Bool) :
    List Nat → LoaderState → Reading Run
  | [], state => return .ok state
  | index :: rest, state => do
    let p ← readPhdr image index
    if loads p then
      match mapOneSegment kernel image.file p forceFixed state with
      | .ok state => mapSegments kernel image forceFixed rest state
      | .error failure state => return .error failure (loaderUnmapAll kernel state)
      | .fault => return .fault
    else mapSegments kernel image forceFixed rest state

def etExec : Nat := 2

def loaderMapImage (kernel : Kernel) (image : ElfImage) (forceFixed : Bool)
    (start : LoaderState) : Reading Run := do
  let state : LoaderState := { start with mappings := {} }
  if image.type ≠ etExec then return .error (.notExec image.type) state
  else if ← imageHasInterp image then return .error .interp state
  else mapSegments kernel image forceFixed (List.range image.header.phnum) state

end EmbeddedRuntime.Loader.Model
