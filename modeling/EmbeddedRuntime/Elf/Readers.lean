import EmbeddedRuntime.Elf.Image
import EmbeddedRuntime.Lib.Word64

/-!
# The readers of `elf/elf_parser.c`

Each `elf_print_*` function returns the rows it prints.  A name is the offset of
its first byte in the file; `none` prints as `<bad-name>`.
-/

set_option autoImplicit false

namespace EmbeddedRuntime.Elf.Readers

open EmbeddedRuntime.Elf.Image
open EmbeddedRuntime.Lib.ReadLog
open EmbeddedRuntime.Lib.Word64

def ptLoad : Nat := 1
def ptInterp : Nat := 3
def shtSymtab : Nat := 2
def shtDynsym : Nat := 11

def elfTypeName : Nat → String
  | 0 => "NONE"
  | 1 => "REL (Relocatable)"
  | 2 => "EXEC (Executable)"
  | 3 => "DYN (Shared/PIE)"
  | 4 => "CORE"
  | _ => "Unknown"

def phTypeName : Nat → String
  | 0 => "NULL"
  | 1 => "LOAD"
  | 2 => "DYNAMIC"
  | 3 => "INTERP"
  | 4 => "NOTE"
  | 6 => "PHDR"
  | 7 => "TLS"
  | _ => "OTHER"

/-- `PF_R`, `PF_W` and `PF_X` are the bits 2, 1 and 0. -/
def permString (flags : Nat) : String :=
  (if flags.testBit 2 then "R" else "-") ++ (if flags.testBit 1 then "W" else "-") ++
    (if flags.testBit 0 then "X" else "-")

structure SegmentRow where
  index : Nat
  type : String
  header : Phdr
  perms : String
  deriving DecidableEq, Repr

def elfPrintSegments (image : ElfImage) : Reading (List SegmentRow) :=
  each (List.range image.header.phnum) fun index => do
    let p ← readPhdr image index
    return { index, type := phTypeName p.type, header := p, perms := permString p.flags }

structure MemoryMapRow where
  vaddr : Nat
  offset : Nat
  filesz : Nat
  memsz : Nat
  perms : String
  zeroFill : Nat
  deriving DecidableEq, Repr

def elfPrintMemoryMap (image : ElfImage) : Reading (List MemoryMapRow) := do
  let rows ← each (List.range image.header.phnum) fun index => do
    let p ← readPhdr image index
    if p.type ≠ ptLoad then return none
    else
      return some {
        vaddr := p.vaddr, offset := p.offset, filesz := p.filesz, memsz := p.memsz
        perms := permString p.flags
        zeroFill := if p.memsz > p.filesz then p.memsz - p.filesz else 0 }
  return rows.filterMap id

def shTypeName : Nat → String
  | 0 => "NULL"
  | 1 => "PROGBITS"
  | 2 => "SYMTAB"
  | 3 => "STRTAB"
  | 4 => "RELA"
  | 5 => "HASH"
  | 6 => "DYNAMIC"
  | 7 => "NOTE"
  | 8 => "NOBITS"
  | 9 => "REL"
  | 11 => "DYNSYM"
  | _ => "OTHER"

/-- `SHF_ALLOC`, `SHF_WRITE` and `SHF_EXECINSTR` are the bits 1, 0 and 2. -/
def sectionFlags64 (flags : Nat) : String :=
  (if flags.testBit 1 then "A" else "") ++ (if flags.testBit 0 then "W" else "") ++
    (if flags.testBit 2 then "X" else "")

structure SectionRow where
  index : Nat
  name : Option Nat
  type : String
  addr : Nat
  offset : Nat
  size : Nat
  flags : String
  deriving DecidableEq, Repr

/-- Where the section names are: offset and size, of size zero when there are none. -/
def sectionNames (image : ElfImage) : Reading (Nat × Nat) := do
  if image.header.shstrndx < image.header.shnum then
    let str ← readShdr image image.header.shstrndx
    if rangeOk image.file str.offset str.size then return (str.offset, str.size)
    else return (0, 0)
  else return (0, 0)

def elfPrintSections (image : ElfImage) : Reading (List SectionRow) := do
  let (names, namesSize) ← sectionNames image
  each (List.range image.header.shnum) fun index => do
    let s ← readShdr image index
    return {
      index, name := if s.name < namesSize then some (names + s.name) else none
      type := shTypeName s.type, addr := s.addr, offset := s.offset, size := s.size
      flags := sectionFlags64 s.flags }

def symBindName : Nat → String
  | 0 => "LOCAL"
  | 1 => "GLOBAL"
  | 2 => "WEAK"
  | _ => "OTHER"

def symTypeName : Nat → String
  | 0 => "NOTYPE"
  | 1 => "OBJECT"
  | 2 => "FUNC"
  | 3 => "SECTION"
  | 4 => "FILE"
  | 6 => "TLS"
  | _ => "OTHER"

structure SymbolRow where
  index : Nat
  value : Nat
  size : Nat
  type : String
  bind : String
  name : Option Nat
  deriving DecidableEq, Repr

structure SymbolTable where
  tableIndex : Nat
  rows : List SymbolRow
  deriving DecidableEq, Repr

/-- The section is a symbol table whose range and link `elf_print_symbols` accepts. -/
def symbolSection (image : ElfImage) (s : Shdr) : Prop :=
  (s.type = shtSymtab ∨ s.type = shtDynsym) ∧ s.link < image.header.shnum ∧ s.entsize ≠ 0 ∧
    rangeOk image.file s.offset s.size

instance (image : ElfImage) (s : Shdr) : Decidable (symbolSection image s) :=
  inferInstanceAs (Decidable ((_ ∨ _) ∧ _ ∧ _ ∧ _))

/-- One turn of the loop of `elf_print_symbols`; `none` continues without a table. -/
def printSymbolSection (image : ElfImage) (tableIndex : Nat) : Reading (Option SymbolTable) := do
  let s ← readShdr image tableIndex
  if symbolSection image s then
    let str ← readShdr image s.link
    if rangeOk image.file str.offset str.size then
      let rows ← each (List.range (s.size / s.entsize)) fun index => do
        let symbol ← readSym image s index
        return {
          index, value := symbol.value, size := symbol.size
          type := symTypeName (symbol.info % 16), bind := symBindName (symbol.info / 16)
          name := if symbol.name < str.size then some (str.offset + symbol.name) else none }
      return some { tableIndex, rows }
    else return none
  else return none

/-- The tables it prints; for none of them it prints that there are no symbols. -/
def elfPrintSymbols (image : ElfImage) : Reading (List SymbolTable) := do
  let tables ← each (List.range image.header.shnum) (printSymbolSection image)
  return tables.filterMap id

/-- The header's file range contains the address; the end wraps as `uint64_t` does. -/
def selects (p : Phdr) (vaddr : Nat) : Prop :=
  p.type = ptLoad ∧ p.vaddr ≤ vaddr ∧ vaddr < add64 p.vaddr p.filesz

instance (p : Phdr) (vaddr : Nat) : Decidable (selects p vaddr) :=
  inferInstanceAs (Decidable (_ ∧ _ ∧ _))

def elfVaddrToOffset (image : ElfImage) (vaddr : Nat) : Reading (Option Nat) :=
  firstSome
    (fun index => do
      let p ← readPhdr image index
      if selects p vaddr then return some (add64 p.offset (vaddr - p.vaddr))
      else return none)
    (List.range image.header.phnum)

end EmbeddedRuntime.Elf.Readers
