import EmbeddedRuntime.Lib.ByteOrder
import EmbeddedRuntime.Lib.Machine
import Mathlib.Data.List.AList
import Mathlib.Logic.Function.Iterate

/-!
# `Datapath::process` of `network-verification-lab/src/datapath.cpp`

A datagram is a list of bytes.  The session table is a map from session ids to
the last accepted sequence number; the counters are 64-bit words.  `process`
returns the reply, empty for a datagram that is dropped, and the new state.
-/

set_option autoImplicit false

namespace EmbeddedRuntime.Nver.Process

open EmbeddedRuntime.Lib.ByteOrder
open EmbeddedRuntime.Lib.Machine

def magic : UInt32 := 0x4e564552
def version : UInt8 := 1
def headerBytes : Nat := 24
def maxPayload : Nat := 1400
def maxSessions : Nat := 64

inductive Kind where
  | data
  | ack
  | statsRequest
  | statsReply
  | resetRequest
  | resetReply
  deriving DecidableEq, Repr

def Kind.code : Kind → UInt8
  | .data => 1
  | .ack => 2
  | .statsRequest => 3
  | .statsReply => 4
  | .resetRequest => 5
  | .resetReply => 6

def u16 (bytes : List UInt8) (offset : Nat) : UInt16 :=
  ofBe16 (bytes.getD offset 0) (bytes.getD (offset + 1) 0)

def u32 (bytes : List UInt8) (offset : Nat) : UInt32 :=
  ofBe32 (bytes.getD offset 0) (bytes.getD (offset + 1) 0) (bytes.getD (offset + 2) 0)
    (bytes.getD (offset + 3) 0)

/-- One turn of the inner loop of `crc32`. -/
def crcBit (value : UInt32) : UInt32 :=
  (value >>> 1) ^^^ (if value &&& 1 ≠ 0 then 0xedb88320 else 0)

def crc32 (input : List UInt8) (value : UInt32) : UInt32 :=
  input.foldl (fun value byte => crcBit^[8] (value ^^^ byte.toUInt32)) value

/-- The initial value of a checksum, also the mask applied at its end. -/
def allOnes : UInt32 := 0xffffffff

structure Header where
  kind : UInt8
  flags : UInt16
  session : UInt32
  sequence : UInt32
  length : UInt16
  reserved : UInt16
  deriving DecidableEq, Repr

def header (bytes : List UInt8) : Header where
  kind := bytes.getD 5 0
  flags := u16 bytes 6
  session := u32 bytes 8
  sequence := u32 bytes 12
  length := u16 bytes 16
  reserved := u16 bytes 18

def encode (kind : Kind) (session sequence : UInt32) (payload : List UInt8) : List UInt8 :=
  let out := be32 magic ++ [version, kind.code] ++ be16 0 ++ be32 session ++ be32 sequence ++
    be16 (UInt16.ofNat payload.length) ++ be16 0
  let check := crc32 out allOnes
  let check := if payload ≠ [] then crc32 payload check else check
  out ++ be32 (check ^^^ allOnes) ++ payload

structure Counters where
  datagrams : UInt64 := 0
  accepted : UInt64 := 0
  invalid : UInt64 := 0
  crcErrors : UInt64 := 0
  lengthErrors : UInt64 := 0
  replayErrors : UInt64 := 0
  headerErrors : UInt64 := 0
  typeErrors : UInt64 := 0
  sessionErrors : UInt64 := 0
  bytesAccepted : UInt64 := 0
  deriving DecidableEq, Repr

/-- The six error counters. -/
inductive ErrorCounter where
  | crc
  | length
  | replay
  | header
  | type
  | session
  deriving DecidableEq, Repr

/-- A drop adds one to `invalid` and to one error counter. -/
def Counters.reject (counts : Counters) (error : ErrorCounter) : Counters :=
  let counts := { counts with invalid := counts.invalid + 1 }
  match error with
  | .crc => { counts with crcErrors := counts.crcErrors + 1 }
  | .length => { counts with lengthErrors := counts.lengthErrors + 1 }
  | .replay => { counts with replayErrors := counts.replayErrors + 1 }
  | .header => { counts with headerErrors := counts.headerErrors + 1 }
  | .type => { counts with typeErrors := counts.typeErrors + 1 }
  | .session => { counts with sessionErrors := counts.sessionErrors + 1 }

/-- `std::map<std::uint32_t, std::uint32_t>`. -/
abbrev SessionTable := AList fun _ : UInt32 => UInt32

structure Datapath where
  counts : Counters := {}
  lastSeq : SessionTable := ∅

/-- The number of entries of the session table. -/
def Datapath.sessions (dp : Datapath) : Nat := dp.lastSeq.entries.length

/-- The text of `stats`. -/
def Datapath.stats (dp : Datapath) : String :=
  let number (value : UInt64) : String := toString value.toNat
  "\x7b\"datagrams\":" ++ number dp.counts.datagrams ++
    ",\"accepted\":" ++ number dp.counts.accepted ++
    ",\"invalid\":" ++ number dp.counts.invalid ++
    ",\"crc_errors\":" ++ number dp.counts.crcErrors ++
    ",\"length_errors\":" ++ number dp.counts.lengthErrors ++
    ",\"replay_errors\":" ++ number dp.counts.replayErrors ++
    ",\"header_errors\":" ++ number dp.counts.headerErrors ++
    ",\"type_errors\":" ++ number dp.counts.typeErrors ++
    ",\"session_errors\":" ++ number dp.counts.sessionErrors ++
    ",\"bytes_accepted\":" ++ number dp.counts.bytesAccepted ++
    ",\"sessions\":" ++ toString dp.sessions ++ "\x7d"

def asciiBytes (text : String) : List UInt8 := text.toList.map fun c => UInt8.ofNat c.toNat

def Datapath.reject (dp : Datapath) (error : ErrorCounter) : List UInt8 × Datapath :=
  ([], { dp with counts := dp.counts.reject error })

/-- The checksum `process` computes over a datagram of the declared length. -/
def checksum (bytes : List UInt8) (length : UInt16) : UInt32 :=
  let sum := crc32 (bytes.take 20) allOnes
  let sum :=
    if length ≠ 0 then crc32 ((bytes.drop headerBytes).take length.toNat) sum else sum
  sum ^^^ allOnes

/-- The branch of `process` for a DATA datagram. -/
def Datapath.data (dp : Datapath) (h : Header) (payload : List UInt8) : List UInt8 × Datapath :=
  let it := dp.lastSeq.lookup h.session
  if it = none ∧ dp.sessions = maxSessions then dp.reject .session
  else
    let delta := match it with
      | none => 1
      | some last => h.sequence - last
    if delta = 0 ∨ delta ≥ 0x80000000 then dp.reject .replay
    else
      (encode .ack h.session h.sequence payload,
        { counts :=
            { dp.counts with
              accepted := dp.counts.accepted + 1
              bytesAccepted := dp.counts.bytesAccepted + h.length.toUInt64 }
          lastSeq := dp.lastSeq.insert h.session h.sequence })

/-- A request on the control session. -/
def Header.requests (h : Header) (kind : Kind) : Prop :=
  h.kind = kind.code ∧ h.session = 0 ∧ h.sequence = 0 ∧ h.length = 0

instance (h : Header) (kind : Kind) : Decidable (h.requests kind) :=
  inferInstanceAs (Decidable (_ ∧ _ ∧ _ ∧ _))

/-- `++counts_.datagrams`. -/
def Datapath.received (dp : Datapath) : Datapath :=
  { dp with counts := { dp.counts with datagrams := dp.counts.datagrams + 1 } }

def process (dp : Datapath) (bytes : List UInt8) : List UInt8 × Datapath :=
  let dp := dp.received
  if bytes.length < headerBytes then dp.reject .length
  else
    let h := header bytes
    if u32 bytes 0 ≠ magic ∨ bytes.getD 4 0 ≠ version ∨ h.flags ≠ 0 ∨ h.reserved ≠ 0 then
      dp.reject .header
    else if h.length.toNat > maxPayload ∨ bytes.length ≠ headerBytes + h.length.toNat then
      dp.reject .length
    else if checksum bytes h.length ≠ u32 bytes 20 then dp.reject .crc
    else if h.kind = Kind.data.code then dp.data h (bytes.drop headerBytes)
    else if h.requests .statsRequest then
      (encode .statsReply 0 0 (asciiBytes dp.stats), dp)
    else if h.requests .resetRequest then (encode .resetReply 0 0 [], {})
    else dp.reject .type

/-! ## What a datagram does -/

/-- The datagram passes the header, length and CRC checks. -/
structure WellFormed (bytes : List UInt8) : Prop where
  enough : headerBytes ≤ bytes.length
  magicOk : u32 bytes 0 = magic
  versionOk : bytes.getD 4 0 = version
  flagsOk : (header bytes).flags = 0
  reservedOk : (header bytes).reserved = 0
  lengthLe : (header bytes).length.toNat ≤ maxPayload
  size : bytes.length = headerBytes + (header bytes).length.toNat
  crcOk : checksum bytes (header bytes).length = u32 bytes 20

structure IsData (bytes : List UInt8) : Prop extends WellFormed bytes where
  kindOk : (header bytes).kind = Kind.data.code

/-- A well-formed request on the control session. -/
structure IsRequest (kind : Kind) (bytes : List UInt8) : Prop extends WellFormed bytes where
  requests : (header bytes).requests kind

theorem wellFormed_iff (bytes : List UInt8) :
    WellFormed bytes ↔ headerBytes ≤ bytes.length ∧ u32 bytes 0 = magic ∧
      bytes.getD 4 0 = version ∧ (header bytes).flags = 0 ∧ (header bytes).reserved = 0 ∧
      (header bytes).length.toNat ≤ maxPayload ∧
      bytes.length = headerBytes + (header bytes).length.toNat ∧
      checksum bytes (header bytes).length = u32 bytes 20 := by
  constructor
  · rintro ⟨enough, magicOk, versionOk, flagsOk, reservedOk, lengthLe, size, crcOk⟩
    exact ⟨enough, magicOk, versionOk, flagsOk, reservedOk, lengthLe, size, crcOk⟩
  · rintro ⟨enough, magicOk, versionOk, flagsOk, reservedOk, lengthLe, size, crcOk⟩
    exact ⟨enough, magicOk, versionOk, flagsOk, reservedOk, lengthLe, size, crcOk⟩

theorem isData_iff (bytes : List UInt8) :
    IsData bytes ↔ WellFormed bytes ∧ (header bytes).kind = Kind.data.code :=
  ⟨fun isData => ⟨isData.toWellFormed, isData.kindOk⟩, fun both => ⟨both.1, both.2⟩⟩

theorem isRequest_iff (kind : Kind) (bytes : List UInt8) :
    IsRequest kind bytes ↔ WellFormed bytes ∧ (header bytes).requests kind :=
  ⟨fun request => ⟨request.toWellFormed, request.requests⟩, fun both => ⟨both.1, both.2⟩⟩

instance (bytes : List UInt8) : Decidable (WellFormed bytes) :=
  decidable_of_iff _ (wellFormed_iff bytes).symm

instance (bytes : List UInt8) : Decidable (IsData bytes) :=
  decidable_of_iff _ (isData_iff bytes).symm

instance (kind : Kind) (bytes : List UInt8) : Decidable (IsRequest kind bytes) :=
  decidable_of_iff _ (isRequest_iff kind bytes).symm

/-- The sequence number may follow the last one of its session. -/
def Fresh (table : SessionTable) (h : Header) : Prop :=
  ∀ last, table.lookup h.session = some last →
    h.sequence - last ≠ 0 ∧ h.sequence - last < 0x80000000

/-- The session has an entry or there is room for one. -/
def Room (table : SessionTable) (h : Header) : Prop :=
  table.lookup h.session ≠ none ∨ table.entries.length ≠ maxSessions

/-- What `process` makes of a datagram. -/
inductive Verdict (dp : Datapath) (bytes : List UInt8) : List UInt8 × Datapath → Prop where
  | malformed (error : ErrorCounter) (bad : ¬ WellFormed bytes) :
      Verdict dp bytes (dp.received.reject error)
  | full (isData : IsData bytes) (none : ¬ Room dp.lastSeq (header bytes)) :
      Verdict dp bytes (dp.received.reject .session)
  | replay (isData : IsData bytes) (room : Room dp.lastSeq (header bytes))
      (stale : ¬ Fresh dp.lastSeq (header bytes)) :
      Verdict dp bytes (dp.received.reject .replay)
  | accepted (isData : IsData bytes) (room : Room dp.lastSeq (header bytes))
      (fresh : Fresh dp.lastSeq (header bytes)) :
      Verdict dp bytes
        (encode .ack (header bytes).session (header bytes).sequence (bytes.drop headerBytes),
          { counts :=
              { dp.received.counts with
                accepted := dp.counts.accepted + 1
                bytesAccepted := dp.counts.bytesAccepted + (header bytes).length.toUInt64 }
            lastSeq := dp.lastSeq.insert (header bytes).session (header bytes).sequence })
  | stats (isStats : IsRequest .statsRequest bytes) :
      Verdict dp bytes (encode .statsReply 0 0 (asciiBytes dp.received.stats), dp.received)
  | reset (isReset : IsRequest .resetRequest bytes) :
      Verdict dp bytes (encode .resetReply 0 0 [], {})
  | unknown (formed : WellFormed bytes) (notData : ¬ IsData bytes)
      (notStats : ¬ IsRequest .statsRequest bytes) (notReset : ¬ IsRequest .resetRequest bytes) :
      Verdict dp bytes (dp.received.reject .type)

theorem encode_ne_nil (kind : Kind) (session sequence : UInt32) (payload : List UInt8) :
    encode kind session sequence payload ≠ [] := by
  simp [encode, be32]

theorem data_verdict (dp : Datapath) (bytes : List UInt8) (isData : IsData bytes) :
    Verdict dp bytes (dp.received.data (header bytes) (bytes.drop headerBytes)) := by
  have sameTable : dp.received.lastSeq = dp.lastSeq := rfl
  unfold Datapath.data
  simp only [sameTable]
  by_cases none : dp.lastSeq.lookup (header bytes).session = none ∧
      dp.received.sessions = maxSessions
  · rw [if_pos none]
    apply Verdict.full isData
    intro room
    rcases room with known | space
    · exact known none.1
    · exact space none.2
  · rw [if_neg none]
    have room : Room dp.lastSeq (header bytes) := by
      by_cases known : dp.lastSeq.lookup (header bytes).session = Option.none
      · exact Or.inr fun full => none ⟨known, full⟩
      · exact Or.inl known
    have fresh_iff : Fresh dp.lastSeq (header bytes) ↔
        ¬ ((match dp.lastSeq.lookup (header bytes).session with
            | Option.none => 1
            | some last => (header bytes).sequence - last) = 0 ∨
          (match dp.lastSeq.lookup (header bytes).session with
            | Option.none => 1
            | some last => (header bytes).sequence - last) ≥ 0x80000000) := by
      unfold Fresh
      cases dp.lastSeq.lookup (header bytes).session with
      | none => simp
      | some last => simp [not_or, UInt32.not_le]
    split_ifs with stale
    · exact Verdict.replay isData room fun fresh => fresh_iff.mp fresh stale
    · exact Verdict.accepted isData room (fresh_iff.mpr stale)

theorem process_verdict (dp : Datapath) (bytes : List UInt8) :
    Verdict dp bytes (process dp bytes) := by
  unfold process
  simp only
  split_ifs with short bad size crc isData isStats isReset
  · exact Verdict.malformed .length fun formed => Nat.not_lt.mpr formed.enough short
  · apply Verdict.malformed .header
    intro formed
    rcases bad with noMagic | noVersion | flags | reserved
    · exact noMagic formed.magicOk
    · exact noVersion formed.versionOk
    · exact flags formed.flagsOk
    · exact reserved formed.reservedOk
  · apply Verdict.malformed .length
    intro formed
    rcases size with long | other
    · exact Nat.not_lt.mpr formed.lengthLe long
    · exact other formed.size
  · exact Verdict.malformed .crc fun formed => crc formed.crcOk
  all_goals
    have formed : WellFormed bytes := by
      simp only [not_or, not_not, Nat.not_lt] at short bad size crc
      obtain ⟨magicOk, versionOk, flagsOk, reservedOk⟩ := bad
      exact ⟨short, magicOk, versionOk, flagsOk, reservedOk, size.1, size.2, crc⟩
  · exact data_verdict dp bytes ⟨formed, isData⟩
  · exact Verdict.stats ⟨formed, isStats⟩
  · exact Verdict.reset ⟨formed, isReset⟩
  · exact Verdict.unknown formed (fun other => isData other.kindOk)
      (fun other => isStats other.requests) (fun other => isReset other.requests)

/-! ## Sequences of datagrams -/

/-- One call of `process`: the datagram and the reply. -/
structure Exchange where
  datagram : List UInt8
  reply : List UInt8
  deriving DecidableEq, Repr

def exchange (dp : Datapath) (bytes : List UInt8) : Exchange := ⟨bytes, (process dp bytes).1⟩

/-- The state after a sequence of datagrams. -/
def after (dp : Datapath) (datagrams : List (List UInt8)) : Datapath :=
  run (fun dp bytes => (process dp bytes).2) dp datagrams

/-- The calls of a sequence of datagrams. -/
def exchanges (dp : Datapath) : List (List UInt8) → List Exchange
  | [] => []
  | bytes :: rest => exchange dp bytes :: exchanges (process dp bytes).2 rest

theorem after_concat (dp : Datapath) (datagrams : List (List UInt8)) (bytes : List UInt8) :
    after dp (datagrams ++ [bytes]) = (process (after dp datagrams) bytes).2 :=
  run_append ..

theorem exchanges_concat (dp : Datapath) (datagrams : List (List UInt8)) (bytes : List UInt8) :
    exchanges dp (datagrams ++ [bytes]) =
      exchanges dp datagrams ++ [exchange (after dp datagrams) bytes] := by
  induction datagrams generalizing dp with
  | nil => rfl
  | cons first rest ih =>
      rw [List.cons_append, exchanges, exchanges, List.cons_append, ih]
      rfl

/-- A DATA datagram that is acknowledged. -/
def Exchange.Accepted (e : Exchange) : Prop := IsData e.datagram ∧ e.reply ≠ []

/-- An answered request of a kind. -/
def Exchange.Answered (kind : Kind) (e : Exchange) : Prop :=
  IsRequest kind e.datagram ∧ e.reply ≠ []

instance (e : Exchange) : Decidable e.Accepted := inferInstanceAs (Decidable (_ ∧ _))

instance (kind : Kind) (e : Exchange) : Decidable (e.Answered kind) :=
  inferInstanceAs (Decidable (_ ∧ _))

def Exchange.session (e : Exchange) : UInt32 := (header e.datagram).session
def Exchange.sequence (e : Exchange) : UInt32 := (header e.datagram).sequence
def Exchange.length (e : Exchange) : Nat := (header e.datagram).length.toNat

/-- A datagram has one kind. -/
theorem not_request_of_data {bytes : List UInt8} (isData : IsData bytes) {kind : Kind}
    (other : kind ≠ .data) : ¬ IsRequest kind bytes := by
  intro request
  have same : Kind.data.code = kind.code := isData.kindOk.symm.trans request.requests.1
  cases kind with
  | data => exact other rfl
  | ack | statsRequest | statsReply | resetRequest | resetReply => exact absurd same (by decide)

theorem not_reset_of_stats {bytes : List UInt8} (isStats : IsRequest .statsRequest bytes) :
    ¬ IsRequest .resetRequest bytes := by
  intro isReset
  exact absurd (isStats.requests.1.symm.trans isReset.requests.1) (by decide)

/-- A drop is counted under one heading. -/
theorem reject_injective {counts : Counters} {first second : ErrorCounter}
    (same : counts.reject first = counts.reject second) : first = second := by
  have moved (value : UInt64) : value + 1 ≠ value := by
    intro unmoved
    have sizes := congrArg UInt64.toNat unmoved
    rw [UInt64.toNat_add] at sizes
    have below := value.toNat_lt
    simp at sizes
    omega
  cases first <;> cases second <;>
    simp [Counters.reject, moved, (moved _).symm] at same ⊢

/-- What passes the checks is not dropped for its header, its length or its checksum. -/
theorem drop_of_wellFormed {dp : Datapath} {bytes : List UInt8} {error : ErrorCounter}
    (formed : WellFormed bytes) (dropped : process dp bytes = dp.received.reject error) :
    error = .replay ∨ error = .type ∨ error = .session := by
  have verdict := process_verdict dp bytes
  have heading {other : ErrorCounter}
      (same : dp.received.reject other = dp.received.reject error) : error = other :=
    (reject_injective (congrArg (fun result => result.2.counts) same)).symm
  rw [dropped] at verdict
  generalize result : dp.received.reject error = given at verdict
  have silent : given.1 = [] := by rw [← result]; rfl
  cases verdict with
  | malformed _ bad => exact absurd formed bad
  | full _ _ => exact Or.inr (Or.inr (heading result.symm))
  | replay _ _ _ => exact Or.inl (heading result.symm)
  | accepted _ _ _ => exact absurd silent (encode_ne_nil _ _ _ _)
  | stats _ => exact absurd silent (encode_ne_nil _ _ _ _)
  | reset _ => exact absurd silent (encode_ne_nil _ _ _ _)
  | unknown _ _ _ _ => exact Or.inr (Or.inl (heading result.symm))

end EmbeddedRuntime.Nver.Process
