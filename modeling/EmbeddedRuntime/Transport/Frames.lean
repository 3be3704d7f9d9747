import EmbeddedRuntime.Lib.Buffer
import EmbeddedRuntime.Lib.ByteOrder
import EmbeddedRuntime.Lib.Crc
import EmbeddedRuntime.Lib.Deliveries

/-!
# Frames of `ai-networking-benchmark-lab/src/transport.cpp`

A frame is a header of five big-endian words and the payload.  What a function
throws is its message; `read_frame` takes its bytes from a list of deliveries
and returns nothing at the end of the stream.
-/

set_option autoImplicit false

namespace EmbeddedRuntime.Transport.Frames

open EmbeddedRuntime.Lib.Buffer
open EmbeddedRuntime.Lib.ByteOrder
open EmbeddedRuntime.Lib.Crc
open EmbeddedRuntime.Lib.Deliveries

def MAGIC : UInt32 := 0x46414252
def HEADER_SIZE : Nat := 20
def MAX_BODY : Nat := 2 ^ 20

/-- One turn of the inner loop of `crc32`. -/
def crcBit (crc : UInt32) : UInt32 :=
  (crc >>> 1) ^^^ (if crc &&& 1 ≠ 0 then 0xEDB88320 else 0)

def crc32 (data : List UInt8) : UInt32 :=
  ~~~ data.foldl (fun crc byte => crcBit^[8] (crc ^^^ byte.toUInt32)) 0xFFFFFFFF

def set32 (b : List UInt8) (offset : Nat) (x : UInt32) : List UInt8 := writeAt b offset (be32 x)

def get32 (b : List UInt8) (offset : Nat) : UInt32 :=
  ofBe32 (b.getD offset 0) (b.getD (offset + 1) 0) (b.getD (offset + 2) 0) (b.getD (offset + 3) 0)

structure Frame where
  seq : UInt32
  payload : List UInt8
  deriving DecidableEq, Repr

def encode (seq : UInt32) (payload : List UInt8) : Except String (List UInt8) :=
  if payload.length > MAX_BODY then .error "payload too big"
  else
    let b := List.replicate (HEADER_SIZE + payload.length) 0
    let b := set32 b 0 MAGIC
    let b := set32 b 4 1
    let b := set32 b 8 seq
    let b := set32 b 12 (UInt32.ofNat payload.length)
    let b := set32 b 16 (crc32 payload)
    .ok (writeAt b HEADER_SIZE payload)

/-- `read_all`: the bytes, or nothing when the stream ends before the first one. -/
def readAll (input : List (Delivery UInt8)) (len : Nat) :
    Except String (Option (List UInt8 × List (Delivery UInt8))) :=
  match fill len input with
  | .full bytes rest => .ok (some (bytes, rest))
  | .ended got _ =>
      if got = [] then .ok none else .error "truncated TCP frame or recv failed"
  | .failed _ _ => .error "truncated TCP frame or recv failed"

/-- The payload; nothing is read when the length is zero. -/
def readPayload (input : List (Delivery UInt8)) (len : Nat) :
    Except String (Option (List UInt8 × List (Delivery UInt8))) :=
  if len = 0 then .ok (some ([], input)) else readAll input len

/-- `read_frame` after its header was read. -/
def readBody (h : List UInt8) (input : List (Delivery UInt8)) :
    Except String (Option (Frame × List (Delivery UInt8))) :=
  if get32 h 0 ≠ MAGIC ∨ get32 h 4 ≠ 1 then .error "bad magic/version"
  else
    let len := (get32 h 12).toNat
    if len > MAX_BODY then .error "oversized packet"
    else
      match readPayload input len with
      | .error text => .error text
      | .ok none => .error "truncated payload"
      | .ok (some (payload, rest)) =>
          if crc32 payload ≠ get32 h 16 then .error "bad payload CRC"
          else .ok (some (⟨get32 h 8, payload⟩, rest))

def readFrame (input : List (Delivery UInt8)) :
    Except String (Option (Frame × List (Delivery UInt8))) :=
  match readAll input HEADER_SIZE with
  | .error text => .error text
  | .ok none => .ok none
  | .ok (some (h, rest)) => readBody h rest

/-! ## The bytes of a frame -/

theorem crcBit_toBitVec (crc : UInt32) :
    (crcBit crc).toBitVec = shift ieeePolynomial crc.toBitVec := by
  rw [crcBit, and_one, shift]
  cases crc.toBitVec.getLsbD 0 <;> rfl

theorem crc32_eq_ieee (data : List UInt8) : crc32 data = ieee data := by
  have complement (value : UInt32) : ~~~ value = value ^^^ 0xFFFFFFFF := by
    rw [UInt32.xor_comm]
    exact (UInt32.neg_one_xor).symm
  rw [ieee_eq_foldl (feedByte_of_shift crcBit_toBitVec), crc32, complement]

/-- The twenty bytes of a header. -/
def headerOf (seq length crc : UInt32) : List UInt8 :=
  be32 MAGIC ++ be32 1 ++ be32 seq ++ be32 length ++ be32 crc

theorem length_headerOf (seq length crc : UInt32) :
    (headerOf seq length crc).length = HEADER_SIZE := rfl

def frameBytes (frame : Frame) : List UInt8 :=
  headerOf frame.seq (UInt32.ofNat frame.payload.length) (crc32 frame.payload) ++ frame.payload

theorem encode_eq (frame : Frame) (small : frame.payload.length ≤ MAX_BODY) :
    encode frame.seq frame.payload = .ok (frameBytes frame) := by
  have magic := writeAt_append [] (List.replicate (HEADER_SIZE + frame.payload.length) (0 : UInt8))
    0 (be32 MAGIC) rfl
  simp only [List.nil_append, length_be32] at magic
  simp only [encode, if_neg (Nat.not_lt.mpr small), set32, magic]
  rw [writeAt_append _ _ 4 _ (by simp), writeAt_append _ _ 8 _ (by simp),
    writeAt_append _ _ 12 _ (by simp), writeAt_append _ _ 16 _ (by simp),
    writeAt_append _ _ HEADER_SIZE _ (by simp [HEADER_SIZE])]
  simp [HEADER_SIZE, frameBytes, headerOf]
  omega

theorem length_frameBytes (frame : Frame) :
    (frameBytes frame).length = HEADER_SIZE + frame.payload.length := by
  rw [frameBytes, List.length_append, length_headerOf]

/-- A word of a list that begins with some bytes. -/
theorem get32_take (stream : List UInt8) (offset count : Nat) (inside : offset + 4 ≤ count) :
    get32 (stream.take count) offset = get32 stream offset := by
  have cell (index : Nat) (early : index < count) :
      (stream.take count).getD index 0 = stream.getD index 0 := by
    rw [List.getD_eq_getElem?_getD, List.getD_eq_getElem?_getD, List.getElem?_take, if_pos early]
  simp only [get32, cell offset (by omega), cell (offset + 1) (by omega),
    cell (offset + 2) (by omega), cell (offset + 3) (by omega)]

/-- The header that a stream of at least twenty bytes begins with. -/
theorem take_eq_headerOf (stream : List UInt8) (enough : HEADER_SIZE ≤ stream.length)
    (magic : get32 stream 0 = MAGIC) (version : get32 stream 4 = 1) :
    stream.take HEADER_SIZE =
      headerOf (get32 stream 8) (get32 stream 12) (get32 stream 16) := by
  have cells : stream.take HEADER_SIZE =
      (List.range 20).map fun index => stream.getD (0 + index) 0 :=
    readAt_eq_map stream 0 20 0 (by simpa [HEADER_SIZE] using enough)
  rw [headerOf, ← magic, ← version]
  simp only [get32, be32_ofBe32]
  rw [cells]
  simp [List.range, List.range.loop]

/-! ## One frame off the stream -/

/-- One frame read off the whole stream at once, and the bytes after it. -/
def receive (stream : List UInt8) : Except String (Option (Frame × List UInt8)) :=
  if stream = [] then .ok none
  else if stream.length < HEADER_SIZE then .error "truncated TCP frame or recv failed"
  else if get32 stream 0 ≠ MAGIC ∨ get32 stream 4 ≠ 1 then .error "bad magic/version"
  else
    let len := (get32 stream 12).toNat
    if len > MAX_BODY then .error "oversized packet"
    else if stream.length = HEADER_SIZE ∧ len ≠ 0 then .error "truncated payload"
    else if stream.length < HEADER_SIZE + len then .error "truncated TCP frame or recv failed"
    else
      let payload := (stream.drop HEADER_SIZE).take len
      if crc32 payload ≠ get32 stream 16 then .error "bad payload CRC"
      else .ok (some (⟨get32 stream 8, payload⟩, stream.drop (HEADER_SIZE + len)))

/-- `read_all` on a stream that nothing disturbs. -/
theorem readAll_steady {input : List (Delivery UInt8)} (steady : Steady input) {len : Nat}
    (positive : 0 < len) :
    (contents input = [] → readAll input len = .ok none) ∧
    (contents input ≠ [] → (contents input).length < len →
      readAll input len = .error "truncated TCP frame or recv failed") ∧
    (len ≤ (contents input).length →
      ∃ rest, Steady rest ∧ contents rest = (contents input).drop len ∧
        readAll input len = .ok (some ((contents input).take len, rest))) := by
  obtain ⟨rest, steadyRest, left, filled⟩ := fill_steady len input steady
  refine ⟨?_, ?_, ?_⟩
  · intro none
    have short : ¬ len ≤ (contents input).length := by
      rw [none, List.length_nil]
      omega
    rw [if_neg short] at filled
    simp only [readAll, filled, if_pos none]
  · intro some short
    rw [if_neg (Nat.not_le.mpr short)] at filled
    simp only [readAll, filled, if_neg some]
  · intro enough
    rw [if_pos enough] at filled
    exact ⟨rest, steadyRest, left, by simp only [readAll, filled]⟩

/-- The result of `read_frame` beside the one read off the whole stream. -/
inductive Agrees : Except String (Option (Frame × List UInt8)) →
    Except String (Option (Frame × List (Delivery UInt8))) → Prop where
  | thrown (text : String) : Agrees (.error text) (.error text)
  | closed : Agrees (.ok none) (.ok none)
  | frame (frame : Frame) {rest : List (Delivery UInt8)} (steady : Steady rest) :
      Agrees (.ok (some (frame, contents rest))) (.ok (some (frame, rest)))

/-- The body after the header of a stream. -/
theorem readBody_agrees (stream : List UInt8) {input : List (Delivery UInt8)}
    (steady : Steady input) (enough : HEADER_SIZE ≤ stream.length)
    (left : contents input = stream.drop HEADER_SIZE) :
    Agrees (receive stream) (readBody (stream.take HEADER_SIZE) input) := by
  have word (offset : Nat) (inside : offset + 4 ≤ HEADER_SIZE) :=
    get32_take stream offset HEADER_SIZE inside
  have some : stream ≠ [] := by
    rintro rfl
    cases enough
  have length : (contents input).length = stream.length - HEADER_SIZE := by
    rw [left, List.length_drop]
  unfold receive readBody readPayload
  rw [if_neg some, if_neg (Nat.not_lt.mpr enough), word 0 (by decide), word 4 (by decide),
    word 8 (by decide), word 12 (by decide), word 16 (by decide)]
  by_cases bad : get32 stream 0 ≠ MAGIC ∨ get32 stream 4 ≠ 1
  · rw [if_pos bad, if_pos bad]
    exact .thrown _
  rw [if_neg bad, if_neg bad]
  simp only
  by_cases large : (get32 stream 12).toNat > MAX_BODY
  · rw [if_pos large, if_pos large]
    exact .thrown _
  rw [if_neg large, if_neg large]
  by_cases empty : (get32 stream 12).toNat = 0
  · rw [empty, if_pos rfl, if_neg (fun both => both.2 rfl), if_neg (by omega), List.take_zero]
    by_cases crc : crc32 [] ≠ get32 stream 16
    · simp only [if_pos crc]
      exact .thrown _
    · simp only [if_neg crc, Nat.add_zero, ← left]
      exact .frame _ steady
  · obtain ⟨none, short, full⟩ := readAll_steady steady (Nat.pos_of_ne_zero empty)
    rw [if_neg empty]
    by_cases atEnd : stream.length = HEADER_SIZE
    · have nothing : contents input = [] := by
        apply List.eq_nil_of_length_eq_zero
        omega
      rw [if_pos ⟨atEnd, empty⟩, none nothing]
      exact .thrown _
    rw [if_neg (fun both => atEnd both.1)]
    by_cases cut : stream.length < HEADER_SIZE + (get32 stream 12).toNat
    · have something : contents input ≠ [] := by
        rw [← List.length_pos_iff]
        omega
      rw [if_pos cut, short something (by omega)]
      exact .thrown _
    · obtain ⟨rest, steadyRest, after, read⟩ := full (by omega)
      rw [if_neg cut, read, left]
      rw [left, List.drop_drop] at after
      by_cases crc : crc32 ((stream.drop HEADER_SIZE).take (get32 stream 12).toNat) ≠
          get32 stream 16
      · simp only [if_pos crc]
        exact .thrown _
      · simp only [if_neg crc, ← after]
        exact .frame _ steadyRest

/-- However the bytes arrive, `read_frame` does what `receive` does. -/
theorem readFrame_agrees {input : List (Delivery UInt8)} (steady : Steady input) :
    Agrees (receive (contents input)) (readFrame input) := by
  obtain ⟨none, short, full⟩ := readAll_steady steady (show 0 < HEADER_SIZE by decide)
  unfold readFrame
  by_cases nothing : contents input = []
  · rw [none nothing, nothing]
    exact .closed
  by_cases cut : (contents input).length < HEADER_SIZE
  · rw [short nothing cut, receive, if_neg nothing, if_pos cut]
    exact .thrown _
  · obtain ⟨rest, steadyRest, left, read⟩ := full (Nat.le_of_not_lt cut)
    rw [read]
    exact readBody_agrees (contents input) steadyRest (Nat.le_of_not_lt cut) left

/-! ## Which streams begin with a frame -/

/-- A header with the right length and the bytes it announces. -/
theorem receive_headerOf (seq crc : UInt32) (payload rest : List UInt8)
    (small : payload.length ≤ MAX_BODY) :
    receive (headerOf seq (UInt32.ofNat payload.length) crc ++ payload ++ rest) =
      if crc32 payload ≠ crc then .error "bad payload CRC" else .ok (some (⟨seq, payload⟩, rest)) := by
  have fits : (UInt32.ofNat payload.length).toNat = payload.length := by
    simp only [MAX_BODY] at small
    exact UInt32.toNat_ofNat_of_lt' (by simp only [UInt32.size]; omega)
  generalize stream_eq :
    headerOf seq (UInt32.ofNat payload.length) crc ++ payload ++ rest = stream
  have word (offset : Nat) (value : UInt32) (before : List UInt8)
      (here : ∃ after, headerOf seq (UInt32.ofNat payload.length) crc =
        before ++ be32 value ++ after) (place : before.length = offset) :
      get32 stream offset = value := by
    obtain ⟨after, same⟩ := here
    rw [← stream_eq, same]
    subst place
    simp only [get32, be32, List.append_assoc, List.getD_eq_getElem?_getD]
    simp [ofBe32_be32]
  have magicWord := word 0 MAGIC [] ⟨_, rfl⟩ rfl
  have versionWord := word 4 1 (be32 MAGIC) ⟨_, rfl⟩ rfl
  have seqWord := word 8 seq (be32 MAGIC ++ be32 1) ⟨_, rfl⟩ rfl
  have lengthWord := word 12 _ (be32 MAGIC ++ be32 1 ++ be32 seq) ⟨_, rfl⟩ rfl
  have crcWord := word 16 crc (be32 MAGIC ++ be32 1 ++ be32 seq ++
    be32 (UInt32.ofNat payload.length)) ⟨[], (List.append_nil _).symm⟩ rfl
  have size : stream.length = HEADER_SIZE + payload.length + rest.length := by
    rw [← stream_eq, List.length_append, List.length_append, length_headerOf]
  have body : stream.drop HEADER_SIZE = payload ++ rest := by
    rw [← stream_eq, List.append_assoc]
    exact List.drop_left' (length_headerOf ..)
  have some : stream ≠ [] := by
    rw [← List.length_pos_iff, size]
    simp only [HEADER_SIZE]
    omega
  unfold receive
  simp only [magicWord, versionWord, seqWord, lengthWord, crcWord, fits]
  rw [if_neg some, if_neg (by omega), if_neg (by simp), if_neg (Nat.not_lt.mpr small),
    if_neg (by omega), if_neg (by omega), body, List.take_left, ← List.drop_drop, body,
    List.drop_left]

theorem receive_frameBytes (frame : Frame) (small : frame.payload.length ≤ MAX_BODY)
    (rest : List UInt8) :
    receive (frameBytes frame ++ rest) = .ok (some (frame, rest)) := by
  rw [frameBytes, receive_headerOf _ _ _ _ small, if_neg (not_not.mpr rfl)]

/-- What `receive` accepts is a frame. -/
theorem frameBytes_of_receive {stream left : List UInt8} {frame : Frame}
    (accepted : receive stream = .ok (some (frame, left))) :
    stream = frameBytes frame ++ left ∧ frame.payload.length ≤ MAX_BODY := by
  unfold receive at accepted
  simp only at accepted
  split_ifs at accepted with none short bad large atEnd cut crc
  · cases Except.ok.inj accepted
  simp only [not_or, not_not, Nat.not_lt] at short bad large cut crc
  simp only [Except.ok.injEq, Option.some.injEq, Prod.mk.injEq] at accepted
  obtain ⟨rfl, rfl⟩ := accepted
  have length : ((stream.drop HEADER_SIZE).take (get32 stream 12).toNat).length =
      (get32 stream 12).toNat := by
    rw [List.length_take, List.length_drop]
    omega
  refine ⟨?_, by rw [length]; exact large⟩
  simp only [frameBytes]
  rw [length, crc, UInt32.ofNat_toNat, ← take_eq_headerOf stream short bad.1 bad.2,
    List.append_assoc, ← List.drop_drop, List.take_append_drop, List.take_append_drop]

end EmbeddedRuntime.Transport.Frames
