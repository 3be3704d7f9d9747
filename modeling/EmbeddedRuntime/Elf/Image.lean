import EmbeddedRuntime.Lib.ByteOrder
import EmbeddedRuntime.Lib.ReadLog
import Mathlib.Algebra.Group.Nat.Defs

/-!
# ELF images: `elf/elf_parser.c`

The mapped file is a function from offsets to bytes; from `size` on it stands for
whatever memory lies behind the mapping, which the code may read but the file does
not determine.  ELF32 and ELF64 differ in the layout of their records only, so each
pair of branches of the source is one definition with the class as a parameter.

Every program header, section header and symbol is read through `readPhdr`,
`readShdr` and `readSym`, which log the bytes of the record.
-/

set_option autoImplicit false

namespace EmbeddedRuntime.Elf.Image

open EmbeddedRuntime.Lib.ByteOrder
open EmbeddedRuntime.Lib.ReadLog

structure File where
  data : Nat → UInt8
  size : Nat
  /-- `st_size` is an `off_t`. -/
  sizeSmall : size < 2 ^ 63

inductive ElfClass where
  | elf32
  | elf64
  deriving DecidableEq, Repr

def ehdrSize : ElfClass → Nat
  | .elf32 => 52
  | .elf64 => 64

def phdrSize : ElfClass → Nat
  | .elf32 => 32
  | .elf64 => 56

def shdrSize : ElfClass → Nat
  | .elf32 => 40
  | .elf64 => 64

def symSize : ElfClass → Nat
  | .elf32 => 16
  | .elf64 => 24

structure Ehdr where
  type : Nat
  machine : Nat
  entry : Nat
  phoff : Nat
  shoff : Nat
  ehsize : Nat
  phentsize : Nat
  phnum : Nat
  shentsize : Nat
  shnum : Nat
  shstrndx : Nat
  deriving DecidableEq, Repr

structure Phdr where
  type : Nat
  offset : Nat
  vaddr : Nat
  filesz : Nat
  memsz : Nat
  flags : Nat
  align : Nat
  deriving DecidableEq, Repr

structure Shdr where
  name : Nat
  type : Nat
  flags : Nat
  addr : Nat
  offset : Nat
  size : Nat
  link : Nat
  entsize : Nat
  deriving DecidableEq, Repr

structure Sym where
  name : Nat
  info : Nat
  value : Nat
  size : Nat
  deriving DecidableEq, Repr

/-- `Elf32_Ehdr` and `Elf64_Ehdr` at the start of the file. -/
def ehdr (data : Nat → UInt8) : ElfClass → Ehdr
  | .elf32 =>
    { type := littleEndian data 16 2
      machine := littleEndian data 18 2
      entry := littleEndian data 24 4
      phoff := littleEndian data 28 4
      shoff := littleEndian data 32 4
      ehsize := littleEndian data 40 2
      phentsize := littleEndian data 42 2
      phnum := littleEndian data 44 2
      shentsize := littleEndian data 46 2
      shnum := littleEndian data 48 2
      shstrndx := littleEndian data 50 2 }
  | .elf64 =>
    { type := littleEndian data 16 2
      machine := littleEndian data 18 2
      entry := littleEndian data 24 8
      phoff := littleEndian data 32 8
      shoff := littleEndian data 40 8
      ehsize := littleEndian data 52 2
      phentsize := littleEndian data 54 2
      phnum := littleEndian data 56 2
      shentsize := littleEndian data 58 2
      shnum := littleEndian data 60 2
      shstrndx := littleEndian data 62 2 }

/-- `Elf32_Phdr` and `Elf64_Phdr` at an offset. -/
def phdr (data : Nat → UInt8) (base : Nat) : ElfClass → Phdr
  | .elf32 =>
    { type := littleEndian data base 4
      offset := littleEndian data (base + 4) 4
      vaddr := littleEndian data (base + 8) 4
      filesz := littleEndian data (base + 16) 4
      memsz := littleEndian data (base + 20) 4
      flags := littleEndian data (base + 24) 4
      align := littleEndian data (base + 28) 4 }
  | .elf64 =>
    { type := littleEndian data base 4
      flags := littleEndian data (base + 4) 4
      offset := littleEndian data (base + 8) 8
      vaddr := littleEndian data (base + 16) 8
      filesz := littleEndian data (base + 32) 8
      memsz := littleEndian data (base + 40) 8
      align := littleEndian data (base + 48) 8 }

/-- `Elf32_Shdr` and `Elf64_Shdr` at an offset. -/
def shdr (data : Nat → UInt8) (base : Nat) : ElfClass → Shdr
  | .elf32 =>
    { name := littleEndian data base 4
      type := littleEndian data (base + 4) 4
      flags := littleEndian data (base + 8) 4
      addr := littleEndian data (base + 12) 4
      offset := littleEndian data (base + 16) 4
      size := littleEndian data (base + 20) 4
      link := littleEndian data (base + 24) 4
      entsize := littleEndian data (base + 36) 4 }
  | .elf64 =>
    { name := littleEndian data base 4
      type := littleEndian data (base + 4) 4
      flags := littleEndian data (base + 8) 8
      addr := littleEndian data (base + 16) 8
      offset := littleEndian data (base + 24) 8
      size := littleEndian data (base + 32) 8
      link := littleEndian data (base + 40) 4
      entsize := littleEndian data (base + 56) 8 }

/-- `Elf32_Sym` and `Elf64_Sym` at an offset. -/
def sym (data : Nat → UInt8) (base : Nat) : ElfClass → Sym
  | .elf32 =>
    { name := littleEndian data base 4
      value := littleEndian data (base + 4) 4
      size := littleEndian data (base + 8) 4
      info := littleEndian data (base + 12) 1 }
  | .elf64 =>
    { name := littleEndian data base 4
      info := littleEndian data (base + 4) 1
      value := littleEndian data (base + 8) 8
      size := littleEndian data (base + 16) 8 }

/-- The open file and the fields `elf_image_open` copies out of its header. -/
structure ElfImage where
  file : File
  elfClass : ElfClass
  machine : Nat
  type : Nat
  entry : Nat

/-! ## Opening an image -/

/-- The errors of `elf_image_open`; an `errno` comes with the failed calls. -/
inductive OpenError where
  | openFailed (errno : Nat)
  | fstatFailed (errno : Nat)
  | tooSmall
  | mmapFailed (errno : Nat)
  | notElf
  | endianness
  | truncated
  | headerSize (elfClass : ElfClass)
  | programTable (elfClass : ElfClass)
  | sectionTable (elfClass : ElfClass)
  | unsupportedClass
  deriving DecidableEq, Repr

def className : ElfClass → String
  | .elf32 => "ELF32"
  | .elf64 => "ELF64"

def OpenError.message (strerror : Nat → String) (path : String) : OpenError → String
  | .openFailed errno => "open failed: " ++ strerror errno
  | .fstatFailed errno => "fstat failed: " ++ strerror errno
  | .tooSmall => "invalid file: too small to contain an ELF header"
  | .mmapFailed errno => "mmap failed: " ++ strerror errno
  | .notElf => "not an ELF file: " ++ path
  | .endianness => "unsupported ELF endianness: only little-endian is supported"
  | .truncated => "truncated ELF header: " ++ path
  | .headerSize elfClass => "invalid " ++ className elfClass ++ " header size: " ++ path
  | .programTable elfClass =>
    "invalid " ++ className elfClass ++ " program header table: " ++ path
  | .sectionTable elfClass =>
    "invalid " ++ className elfClass ++ " section header table: " ++ path
  | .unsupportedClass => "unsupported ELF class: expected ELF32 or ELF64"

/-- What the system calls of `elf_image_open` return; `none` is success. -/
structure OpenCalls where
  openErrno : Option Nat := none
  fstatErrno : Option Nat := none
  mmapErrno : Option Nat := none

def rangeOk (file : File) (offset bytes : Nat) : Prop :=
  offset ≤ file.size ∧ bytes ≤ file.size - offset

instance (file : File) (offset bytes : Nat) : Decidable (rangeOk file offset bytes) :=
  inferInstanceAs (Decidable (_ ∧ _))

/-- A table of the header: absent, or with an entry size and inside the file. -/
def tableOk (file : File) (offset count entsize : Nat) : Prop :=
  count = 0 ∨ entsize ≠ 0 ∧ rangeOk file offset (entsize * count)

instance (file : File) (offset count entsize : Nat) :
    Decidable (tableOk file offset count entsize) :=
  inferInstanceAs (Decidable (_ ∨ _ ∧ _))

/-- The branch of `elf_image_open` for one class. -/
def openClass (file : File) (elfClass : ElfClass) : Except OpenError ElfImage :=
  let h := ehdr file.data elfClass
  if ¬ rangeOk file 0 (ehdrSize elfClass) then .error .truncated
  else if h.ehsize < ehdrSize elfClass then .error (.headerSize elfClass)
  else if ¬ tableOk file h.phoff h.phnum h.phentsize then .error (.programTable elfClass)
  else if ¬ tableOk file h.shoff h.shnum h.shentsize then .error (.sectionTable elfClass)
  else .ok { file, elfClass, machine := h.machine, type := h.type, entry := h.entry }

def elfImageOpen (calls : OpenCalls) (file : File) : Except OpenError ElfImage :=
  match calls.openErrno, calls.fstatErrno with
  | some errno, _ => .error (.openFailed errno)
  | none, some errno => .error (.fstatFailed errno)
  | none, none =>
    if file.size < 16 then .error .tooSmall
    else
      match calls.mmapErrno with
      | some errno => .error (.mmapFailed errno)
      | none =>
        if [file.data 0, file.data 1, file.data 2, file.data 3] ≠ [0x7f, 0x45, 0x4c, 0x46] then
          .error .notElf
        else if file.data 5 ≠ 1 then .error .endianness
        else if file.data 4 = 1 then openClass file .elf32
        else if file.data 4 = 2 then openClass file .elf64
        else .error .unsupportedClass

/-- An accepted image has both its tables inside the file. -/
structure Accepted (image : ElfImage) : Prop where
  programTable : tableOk image.file (ehdr image.file.data image.elfClass).phoff
    (ehdr image.file.data image.elfClass).phnum (ehdr image.file.data image.elfClass).phentsize
  sectionTable : tableOk image.file (ehdr image.file.data image.elfClass).shoff
    (ehdr image.file.data image.elfClass).shnum (ehdr image.file.data image.elfClass).shentsize

theorem openClass_accepted (file : File) (elfClass : ElfClass) (image : ElfImage)
    (opened : openClass file elfClass = .ok image) : Accepted image := by
  simp only [openClass] at opened
  split at opened
  · cases opened
  · split at opened
    · cases opened
    · split at opened
      · cases opened
      next programTable =>
        split at opened
        · cases opened
        next sectionTable =>
          cases opened
          exact ⟨not_not.mp programTable, not_not.mp sectionTable⟩

theorem elfImageOpen_accepted (calls : OpenCalls) (file : File) (image : ElfImage)
    (opened : elfImageOpen calls file = .ok image) : Accepted image := by
  unfold elfImageOpen at opened
  split at opened <;> try cases opened
  split at opened <;> try cases opened
  split at opened <;> try cases opened
  split_ifs at opened
  · exact openClass_accepted file .elf32 image opened
  · exact openClass_accepted file .elf64 image opened

/-! ## Reading records -/

/-- The bytes of one record. -/
structure Record where
  offset : Nat
  size : Nat
  deriving DecidableEq, Repr

abbrev Reading := Logged Record

/-- The record lies inside the file. -/
def Record.Inside (record : Record) (file : File) : Prop := record.offset + record.size ≤ file.size

instance (record : Record) (file : File) : Decidable (record.Inside file) :=
  inferInstanceAs (Decidable (_ ≤ _))

def ElfImage.header (image : ElfImage) : Ehdr := ehdr image.file.data image.elfClass

def ElfImage.phdrAt (image : ElfImage) (index : Nat) : Nat :=
  image.header.phoff + index * image.header.phentsize

def ElfImage.shdrAt (image : ElfImage) (index : Nat) : Nat :=
  image.header.shoff + index * image.header.shentsize

/-- Entry `index` of the program header table. -/
def ElfImage.phdr (image : ElfImage) (index : Nat) : Phdr :=
  Image.phdr image.file.data (image.phdrAt index) image.elfClass

def ElfImage.shdr (image : ElfImage) (index : Nat) : Shdr :=
  Image.shdr image.file.data (image.shdrAt index) image.elfClass

def readPhdr (image : ElfImage) (index : Nat) : Reading Phdr :=
  note ⟨image.phdrAt index, phdrSize image.elfClass⟩ (image.phdr index)

def readShdr (image : ElfImage) (index : Nat) : Reading Shdr :=
  note ⟨image.shdrAt index, shdrSize image.elfClass⟩ (image.shdr index)

/-- Entry `index` of a symbol table. -/
def readSym (image : ElfImage) (table : Shdr) (index : Nat) : Reading Sym :=
  let base := table.offset + index * table.entsize
  note ⟨base, symSize image.elfClass⟩ (sym image.file.data base image.elfClass)

/-! ## The width of the fields -/

theorem littleEndian_four (data : Nat → UInt8) (offset : Nat) :
    littleEndian data offset 4 < 2 ^ 64 :=
  Nat.lt_trans (littleEndian_lt data offset 4) (by decide)

theorem littleEndian_eight (data : Nat → UInt8) (offset : Nat) :
    littleEndian data offset 8 < 2 ^ 64 :=
  Nat.lt_of_lt_of_eq (littleEndian_lt data offset 8) (by decide)

/-- The fields of a program header are 64-bit words. -/
theorem ElfImage.phdr_lt (image : ElfImage) (index : Nat) :
    (image.phdr index).offset < 2 ^ 64 ∧ (image.phdr index).vaddr < 2 ^ 64 ∧
      (image.phdr index).filesz < 2 ^ 64 ∧ (image.phdr index).memsz < 2 ^ 64 := by
  unfold ElfImage.phdr
  cases image.elfClass with
  | elf32 =>
    exact ⟨littleEndian_four _ _, littleEndian_four _ _, littleEndian_four _ _,
      littleEndian_four _ _⟩
  | elf64 =>
    exact ⟨littleEndian_eight _ _, littleEndian_eight _ _, littleEndian_eight _ _,
      littleEndian_eight _ _⟩

/-! ## Small executables -/

def File.ofBytes (bytes : List UInt8) (small : bytes.length < 2 ^ 63) : File where
  data := fun i => bytes.getD i 0
  size := bytes.length
  sizeSmall := small

def leBytes : Nat → Nat → List UInt8
  | 0, _ => []
  | width + 1, value => UInt8.ofNat (value % 256) :: leBytes width (value / 256)

/-- The bytes of an `Elf64_Phdr`. -/
def phdrBytes (p : Phdr) : List UInt8 :=
  leBytes 4 p.type ++ leBytes 4 p.flags ++ leBytes 8 p.offset ++ leBytes 8 p.vaddr ++
    leBytes 8 p.vaddr ++ leBytes 8 p.filesz ++ leBytes 8 p.memsz ++ leBytes 8 p.align

/-- An ELF64 executable: the header and a program header table behind it, without
sections. -/
def execBytes (phentsize : Nat) (headers : List Phdr) : List UInt8 :=
  [0x7f, 0x45, 0x4c, 0x46, 2, 1, 1, 0, 0, 0, 0, 0, 0, 0, 0, 0] ++ leBytes 2 2 ++ leBytes 2 62 ++
    leBytes 4 1 ++ leBytes 8 0x400000 ++ leBytes 8 64 ++ leBytes 8 0 ++ leBytes 4 0 ++
    leBytes 2 64 ++ leBytes 2 phentsize ++ leBytes 2 headers.length ++ leBytes 2 0 ++
    leBytes 2 0 ++ leBytes 2 0 ++ headers.flatMap phdrBytes

/-- What `elf_image_open` makes of such a file. -/
def execImage (file : File) : ElfImage where
  file := file
  elfClass := .elf64
  machine := 62
  type := 2
  entry := 0x400000

/-- The checks of `elf_image_open`, and the fields it copies, on such a file. -/
def IsExec (file : File) : Prop :=
  16 ≤ file.size ∧
    [file.data 0, file.data 1, file.data 2, file.data 3] = [0x7f, 0x45, 0x4c, 0x46] ∧
    file.data 5 = 1 ∧ file.data 4 = 2 ∧ rangeOk file 0 (ehdrSize .elf64) ∧
    ehdrSize .elf64 ≤ (ehdr file.data .elf64).ehsize ∧
    tableOk file (ehdr file.data .elf64).phoff (ehdr file.data .elf64).phnum
      (ehdr file.data .elf64).phentsize ∧
    tableOk file (ehdr file.data .elf64).shoff (ehdr file.data .elf64).shnum
      (ehdr file.data .elf64).shentsize ∧
    (ehdr file.data .elf64).machine = 62 ∧ (ehdr file.data .elf64).type = 2 ∧
    (ehdr file.data .elf64).entry = 0x400000

instance (file : File) : Decidable (IsExec file) :=
  inferInstanceAs (Decidable (_ ∧ _ ∧ _ ∧ _ ∧ _ ∧ _ ∧ _ ∧ _ ∧ _ ∧ _ ∧ _))

theorem open_exec (file : File) (exec : IsExec file) :
    elfImageOpen {} file = .ok (execImage file) := by
  obtain ⟨size, magic, order, elfClass, range, ehsize, programTable, sectionTable, machine, type,
    entry⟩ := exec
  have notClass32 : file.data 4 ≠ 1 := by
    rw [elfClass]
    decide
  have opened : openClass file .elf64 = .ok (execImage file) := by
    unfold openClass
    dsimp only
    rw [if_neg (not_not.mpr range), if_neg (Nat.not_lt.mpr ehsize),
      if_neg (not_not.mpr programTable), if_neg (not_not.mpr sectionTable)]
    rw [machine, type, entry, execImage]
  unfold elfImageOpen
  dsimp only
  rw [if_neg (Nat.not_lt.mpr size), if_neg (not_not.mpr magic), if_neg (not_not.mpr order),
    if_neg notClass32, if_pos elfClass, opened]

end EmbeddedRuntime.Elf.Image
