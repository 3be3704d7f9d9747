import EmbeddedRuntime.Lib.ByteOrder
import EmbeddedRuntime.Lib.Deliveries
import EmbeddedRuntime.Protocol.Stream

/-!
# Firmware images, `firmware/image.c`

An image file is a header of forty bytes and the payload.  Reads come from a
list of deliveries, writes follow a schedule of transfers; a write beyond the
schedule stores all it is given.  Messages are kept without the text that
`perror` adds.
-/

set_option autoImplicit false

namespace EmbeddedRuntime.Firmware.Image

open EmbeddedRuntime.Lib.Buffer
open EmbeddedRuntime.Lib.ByteOrder
open EmbeddedRuntime.Lib.Deliveries
open EmbeddedRuntime.Protocol.Crc32
open EmbeddedRuntime.Protocol.Stream

def fwMagic : UInt32 := 0x4d4c4657
def fwFormatVersion : UInt16 := 1
def fwHeaderSize : Nat := 40
def fwMaxImage : Nat := 64 * 1024 * 1024

inductive FwArch where
  | generic
  | x86_64
  | arm64
  | i386
  deriving DecidableEq, Repr

def FwArch.code : FwArch → UInt16
  | .generic => 0
  | .x86_64 => 1
  | .arm64 => 2
  | .i386 => 3

structure FwHeader where
  major : UInt16
  minor : UInt16
  patch : UInt16
  arch : UInt16
  imageSize : UInt64
  crc32 : UInt32
  deriving DecidableEq, Repr

def archName (arch : UInt16) : String :=
  if arch = FwArch.x86_64.code then "x86_64"
  else if arch = FwArch.arm64.code then "arm64"
  else if arch = FwArch.i386.code then "i386"
  else "generic"

/-! ## Versions -/

/-- The characters `isspace` accepts in the C locale. -/
def isSpace (c : Char) : Bool :=
  c = ' ' || c = '\t' || c = '\n' || c = '\x0b' || c = '\x0c' || c = '\r'

def digitsValue (digits : List Char) : Nat :=
  digits.foldl (fun value c => 10 * value + (c.toNat - '0'.toNat)) 0

/-- The sign of a number and the text after it. -/
def scanSign : List Char → Bool × List Char
  | '-' :: rest => (true, rest)
  | '+' :: rest => (false, rest)
  | text => (false, text)

/-- The conversion `%u`: white space, a sign, decimal digits.  The number is read as an
`unsigned long`, which stays at its maximum on overflow, and stored in 32 bits. -/
def scanUnsigned (text : List Char) : Option (UInt32 × List Char) :=
  let (negative, text) := scanSign (text.dropWhile isSpace)
  let digits := text.takeWhile Char.isDigit
  if digits = [] then none
  else
    let value := digitsValue digits
    let long : UInt64 :=
      if value ≥ 2 ^ 64 then 0xFFFFFFFFFFFFFFFF
      else if negative then 0 - UInt64.ofNat value
      else UInt64.ofNat value
    some (long.toUInt32, text.dropWhile Char.isDigit)

/-- A literal point of the format. -/
def scanPoint : List Char → Option (List Char)
  | '.' :: rest => some rest
  | _ => none

/-- `version_parse`: three numbers of sixteen bits and nothing after them. -/
def versionParse (text : List Char) : Option (UInt16 × UInt16 × UInt16) := do
  let (a, text) ← scanUnsigned text
  let text ← scanPoint text
  let (b, text) ← scanUnsigned text
  let text ← scanPoint text
  let (c, text) ← scanUnsigned text
  if text ≠ [] ∨ a > 65535 ∨ b > 65535 ∨ c > 65535 then none
  else some (a.toUInt16, b.toUInt16, c.toUInt16)

def semverCmp (a b : FwHeader) : Int :=
  if a.major ≠ b.major then if a.major > b.major then 1 else -1
  else if a.minor ≠ b.minor then if a.minor > b.minor then 1 else -1
  else if a.patch ≠ b.patch then if a.patch > b.patch then 1 else -1
  else 0

/-! ## The header -/

def putU16Le (p : List UInt8) (offset : Nat) (v : UInt16) : List UInt8 := writeAt p offset (le16 v)
def putU32Le (p : List UInt8) (offset : Nat) (v : UInt32) : List UInt8 := writeAt p offset (le32 v)
def putU64Le (p : List UInt8) (offset : Nat) (v : UInt64) : List UInt8 := writeAt p offset (le64 v)

def getU16Le (p : List UInt8) (offset : Nat) : UInt16 :=
  ofLe16 (p.getD offset 0) (p.getD (offset + 1) 0)

def getU32Le (p : List UInt8) (offset : Nat) : UInt32 :=
  ofLe32 (p.getD offset 0) (p.getD (offset + 1) 0) (p.getD (offset + 2) 0) (p.getD (offset + 3) 0)

def getU64Le (p : List UInt8) (offset : Nat) : UInt64 := ofLe64 (readAt p offset 8)

def serializeHeader (h : FwHeader) : List UInt8 :=
  let out := List.replicate fwHeaderSize 0
  let out := putU32Le out 0 fwMagic
  let out := putU16Le out 4 fwFormatVersion
  let out := putU16Le out 6 h.arch
  let out := putU16Le out 8 h.major
  let out := putU16Le out 10 h.minor
  let out := putU16Le out 12 h.patch
  let out := putU16Le out 14 (UInt16.ofNat fwHeaderSize)
  let out := putU64Le out 16 h.imageSize
  let out := putU32Le out 24 h.crc32
  let out := putU32Le out 28 0
  putU64Le out 32 0

def parseHeader (bytes : List UInt8) : Option FwHeader :=
  if getU32Le bytes 0 ≠ fwMagic then none
  else if getU16Le bytes 4 ≠ fwFormatVersion ∨ getU16Le bytes 14 ≠ UInt16.ofNat fwHeaderSize then
    none
  else
    some {
      arch := getU16Le bytes 6
      major := getU16Le bytes 8
      minor := getU16Le bytes 10
      patch := getU16Le bytes 12
      imageSize := getU64Le bytes 16
      crc32 := getU32Le bytes 24 }

/-! ## Files -/

/-- A file open for writing. -/
structure OutFile where
  bytes : List UInt8
  offset : Nat
  writes : List Transfer
  deriving DecidableEq, Repr

/-- Bytes stored at the file offset, which moves past them. -/
def OutFile.store (file : OutFile) (data : List UInt8) : OutFile :=
  { file with bytes := writeAt file.bytes file.offset data, offset := file.offset + data.length }

/-- One `write` call. -/
def OutFile.write (file : OutFile) (data : List UInt8) : Transfer × OutFile :=
  match file.writes with
  | [] => (.moved data.length, file.store data)
  | .interrupted :: writes => (.interrupted, { file with writes })
  | .failed :: writes => (.failed, { file with writes })
  | .moved count :: writes =>
      let n := min count data.length
      (.moved n, { file.store (data.take n) with writes })

/-- Every call brings the loop of `copy_and_crc` closer to its end. -/
theorem OutFile.write_measure (file : OutFile) (data : List UInt8) (some : data ≠ []) :
    (∀ file', file.write data = (.interrupted, file') →
      file'.writes.length + data.length < file.writes.length + data.length) ∧
    (∀ count file', file.write data = (.moved count, file') →
      file'.writes.length + (data.drop count).length < file.writes.length + data.length) := by
  have positive := List.length_pos_iff.mpr some
  unfold OutFile.write
  split
  next empty =>
    refine ⟨fun file' same => ?_, fun count file' same => ?_⟩
    · simp at same
    · simp only [Prod.mk.injEq, Transfer.moved.injEq] at same
      obtain ⟨rfl, rfl⟩ := same
      simp only [OutFile.store, empty, List.length_nil, List.drop_length]
      omega
  next writes calls =>
    refine ⟨fun file' same => ?_, fun count file' same => ?_⟩
    · simp only [Prod.mk.injEq, true_and] at same
      subst same
      simp [calls]
    · simp at same
  next writes calls =>
    refine ⟨fun file' same => ?_, fun count file' same => ?_⟩
    · simp at same
    · simp at same
  next moved writes calls =>
    refine ⟨fun file' same => ?_, fun count file' same => ?_⟩
    · simp at same
    · simp only [Prod.mk.injEq, Transfer.moved.injEq] at same
      obtain ⟨rfl, rfl⟩ := same
      simp only [OutFile.store, calls, List.length_cons, List.length_drop]
      omega

/-- The inner loop of `copy_and_crc`: false when a write fails. -/
def OutFile.writeAll (file : OutFile) (data : List UInt8) : Bool × OutFile :=
  if some : data = [] then (true, file)
  else
    match result : file.write data with
    | (.interrupted, file) => file.writeAll data
    | (.failed, file) => (false, file)
    | (.moved w, file) => file.writeAll (data.drop w)
termination_by file.writes.length + data.length
decreasing_by
  · exact (OutFile.write_measure _ _ some).1 _ result
  · exact (OutFile.write_measure _ _ some).2 _ _ result

/-- What is done with a chunk: nothing without an output file. -/
def storeChunk (out : Option OutFile) (chunk : List UInt8) : Bool × Option OutFile :=
  match out with
  | none => (true, none)
  | some file => ((file.writeAll chunk).1, some (file.writeAll chunk).2)

/-- The loop of `copy_and_crc` with `total` bytes read so far. -/
def copyLoop (expected : UInt64) (total : Nat) (crc : UInt32) (input : List (Delivery UInt8))
    (out : Option OutFile) : Option UInt32 × Option OutFile :=
  match result : read 8192 input with
  | (.interrupted, rest) => copyLoop expected total crc rest out
  | (.failed, _) => (none, out)
  | (.data buf, rest) =>
      if some : buf = [] then
        (if total ≠ expected.toNat then none else Option.some (mlrtCrc32End crc), out)
      else
        let total := total + buf.length
        if total > expected.toNat then (none, out)
        else
          let crc := mlrtCrc32Update crc buf
          let stored := storeChunk out buf
          if stored.1 then copyLoop expected total crc rest stored.2 else (none, stored.2)
termination_by weight input
decreasing_by
  · exact weight_read_interrupted result
  · exact weight_read_data result some

/-- `copy_and_crc`: the CRC if all went well, and the output file. -/
def copyAndCrc (input : List (Delivery UInt8)) (out : Option OutFile) (expected : UInt64) :
    Option UInt32 × Option OutFile :=
  copyLoop expected 0 mlrtCrc32Begin input out

/-! ## Packing -/

/-- What the system calls of one `pack_image` do. -/
structure PackCalls where
  openInput : Bool
  fstat : Bool
  openOutput : Bool
  reads : List (Delivery UInt8)
  writes : List Transfer
  lseek : Bool

/-- The exit status, what is printed, and the bytes of the output file. -/
structure Packed where
  status : Nat
  out : String
  err : String
  file : List UInt8
  deriving DecidableEq, Repr

/-- The conversion `%08x`. -/
def hex08 (value : UInt32) : String :=
  let digits := Nat.toDigits 16 value.toNat
  String.ofList (List.replicate (8 - digits.length) '0' ++ digits)

def versionText (h : FwHeader) : String :=
  toString h.major ++ "." ++ toString h.minor ++ "." ++ toString h.patch

/-- `pack_image` after the output file was opened. -/
def packInto (calls : PackCalls) (size : Nat) (output : String) (given : FwHeader) : Packed :=
  let file : OutFile := { bytes := [], offset := 0, writes := calls.writes }
  match file.write (List.replicate fwHeaderSize 0) with
  | (.moved 40, file) =>
      let h := { given with imageSize := UInt64.ofNat size }
      match copyAndCrc calls.reads (some file) h.imageSize with
      | (some crc, some file) =>
          let h := { h with crc32 := crc }
          if calls.lseek then
            match { file with offset := 0 }.write (serializeHeader h) with
            | (.moved 40, file) =>
                { status := 0
                  out := "Packed firmware image\n  output: " ++ output ++ "\n  version: " ++
                    versionText h ++ "\n  architecture: " ++ archName h.arch ++
                    "\n  image_size: " ++ toString h.imageSize ++ "\n  crc32: 0x" ++
                    hex08 h.crc32 ++ "\n"
                  err := ""
                  file := file.bytes }
            | (_, file) => { status := 1, out := "", err := "fw pack finalize", file := file.bytes }
          else { status := 1, out := "", err := "fw pack finalize", file := file.bytes }
      | (_, file) =>
          { status := 1, out := "", err := "fw pack: copy failed\n",
            file := (file.map OutFile.bytes).getD [] }
  | (_, file) => { status := 1, out := "", err := "fw pack header", file := file.bytes }

/-- `pack_image` of an input file of `size` bytes; `old` is what the output file held before. -/
def packImage (calls : PackCalls) (size : Nat) (output : String) (old : List UInt8)
    (given : FwHeader) : Packed :=
  if !calls.openInput then { status := 1, out := "", err := "fw pack input", file := old }
  else if !calls.fstat ∨ size > fwMaxImage then
    { status := 1, out := "", err := "fw pack: invalid or oversized input\n", file := old }
  else if !calls.openOutput then
    { status := 1, out := "", err := "fw pack output", file := old }
  else packInto calls size output given

/-! ## Verification -/

/-- What the system calls on an image do. -/
structure ReadCalls where
  opens : Bool
  fstat : Bool
  reads : List (Delivery UInt8)

inductive FwError where
  | image
  | header
  | stat
  deriving DecidableEq, Repr

def FwError.text : FwError → String
  | .image => "fw image"
  | .header => "fw: invalid MLFW image header\n"
  | .stat => "fw stat"

/-- The header of an image and the two checks. -/
structure Report where
  header : FwHeader
  sizeOk : Bool
  crcOk : Bool
  deriving DecidableEq, Repr

/-- `read_image_header`: the header and the deliveries left. -/
def readImageHeader (reads : List (Delivery UInt8)) : Option (FwHeader × List (Delivery UInt8)) :=
  match fill fwHeaderSize reads with
  | .full buf rest => (parseHeader buf).map fun h => (h, rest)
  | .ended _ _ => none
  | .failed _ _ => none

/-- The part that `inspect_or_verify` and `verify_image_file` both have: an image whose
`st_size` is `size`. -/
def examine (calls : ReadCalls) (size : Nat) : Except FwError Report :=
  if !calls.opens then .error .image
  else
    match readImageHeader calls.reads with
    | none => .error .header
    | some (h, rest) =>
        if !calls.fstat then .error .stat
        else
          let expectedFile := UInt64.ofNat fwHeaderSize + h.imageSize
          let sizeOk := decide (UInt64.ofNat size = expectedFile)
          let crcOk :=
            if sizeOk ∧ h.imageSize.toNat ≤ fwMaxImage then
              match (copyAndCrc rest none h.imageSize).1 with
              | some actual => decide (actual = h.crc32)
              | none => false
            else false
          .ok { header := h, sizeOk := sizeOk, crcOk := crcOk }

/-- The lines of `inspect_or_verify`. -/
def Report.text (report : Report) (verify : Bool) : String :=
  "Firmware Image\n  version: " ++ versionText report.header ++ "\n  architecture: " ++
    archName report.header.arch ++ "\n  image_size: " ++ toString report.header.imageSize ++
    " bytes\n  stored_crc32: 0x" ++ hex08 report.header.crc32 ++ "\n" ++
    if verify then
      "  file_size: " ++ (if report.sizeOk then "OK" else "INVALID") ++
        "\n  crc32: " ++ (if report.crcOk then "OK" else "INVALID") ++
        "\n  status: " ++ (if report.sizeOk ∧ report.crcOk then "VALID" else "INVALID") ++ "\n"
    else ""

/-- The exit status and the text on the standard output. -/
def inspectOrVerify (calls : ReadCalls) (size : Nat) (verify : Bool) : Nat × String :=
  match examine calls size with
  | .error _ => (1, "")
  | .ok report =>
      (if verify ∧ ¬ (report.sizeOk ∧ report.crcOk) then 1 else 0, report.text verify)

/-- `verify_image_file`: nothing when it returns -1. -/
def verifyImageFile (calls : ReadCalls) (size : Nat) : Option Report :=
  match examine calls size with
  | .error _ => none
  | .ok report => some report

/-- The exit status of `check_update_policy` and the text on the standard output. -/
def checkUpdatePolicy (calls : ReadCalls) (size : Nat) (current : List Char)
    (allowDowngrade : Bool) : Nat × String :=
  match versionParse current with
  | none => (2, "")
  | some (major, minor, patch) =>
      let currentH : FwHeader := { major, minor, patch, arch := 0, imageSize := 0, crc32 := 0 }
      match verifyImageFile calls size with
      | none => (1, "")
      | some candidate =>
          if !candidate.sizeOk ∨ !candidate.crcOk then
            (1, "Update policy: REJECT (invalid image integrity)\n")
          else
            let accepted := allowDowngrade ∨ semverCmp candidate.header currentH > 0
            (if accepted then 0 else 1,
              "Firmware Update Policy\n  current: " ++ versionText currentH ++
                "\n  candidate: " ++ versionText candidate.header ++
                "\n  integrity: VALID\n  anti_rollback: " ++
                (if allowDowngrade then "disabled" else "enabled") ++ "\n  decision: " ++
                (if accepted then "ACCEPT" else "REJECT") ++ "\n")

end EmbeddedRuntime.Firmware.Image
