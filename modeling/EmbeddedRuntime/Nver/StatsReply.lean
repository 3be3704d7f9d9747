import EmbeddedRuntime.Lib.FlatJson
import EmbeddedRuntime.Nver.Accounting
import EmbeddedRuntime.Nver.PythonPacket

/-!
# `stats` on both ends of the protocol

`Datapath::stats` prints the counters as a JSON object; `stats` of
`network-verification-lab/python/nver_protocol.py` asks for them and parses the text.
-/

set_option autoImplicit false

namespace EmbeddedRuntime.Nver.StatsReply

open EmbeddedRuntime.Lib.Crc
open EmbeddedRuntime.Lib.FlatJson
open EmbeddedRuntime.Nver.Process
open EmbeddedRuntime.Nver.Accounting
open EmbeddedRuntime.Nver.PythonPacket

/-- The counters under the keys of the text. -/
def members (dp : Datapath) : List (String × Nat) :=
  [("datagrams", dp.counts.datagrams.toNat), ("accepted", dp.counts.accepted.toNat),
    ("invalid", dp.counts.invalid.toNat), ("crc_errors", dp.counts.crcErrors.toNat),
    ("length_errors", dp.counts.lengthErrors.toNat),
    ("replay_errors", dp.counts.replayErrors.toNat),
    ("header_errors", dp.counts.headerErrors.toNat), ("type_errors", dp.counts.typeErrors.toNat),
    ("session_errors", dp.counts.sessionErrors.toNat),
    ("bytes_accepted", dp.counts.bytesAccepted.toNat), ("sessions", dp.sessions)]

/-- The characters of a payload of ASCII bytes. -/
def asciiText (payload : List UInt8) : List Char := payload.map fun byte => Char.ofNat byte.toNat

/-- The body of `stats` after `transact` has received a response: the members of the object, where
the payload is the text of one. -/
def stats (zlibCrc32 : List UInt8 → Nat) (response : List UInt8) :
    Except PyError (Option (List (String × Nat))) := do
  let reply ← decode zlibCrc32 response
  if reply.kind ≠ number .statsReply then
    .error (.valueError ("expected stats reply, got " ++ toString reply.kind))
  else .ok (loads (asciiText reply.payload))

/-! ## The text -/

theorem toList_number (value : Nat) : (toString value).toList = Nat.toDigits 10 value :=
  Nat.toList_repr

theorem stats_toList (dp : Datapath) : dp.stats.toList = objectText (members dp) := by
  have opening : "\x7b\"datagrams\":".toList =
      '\x7b' :: '"' :: ("datagrams".toList ++ ['"', ':']) := by decide
  have key1 : ",\"accepted\":".toList = ',' :: '"' :: ("accepted".toList ++ ['"', ':']) := by decide
  have key2 : ",\"invalid\":".toList = ',' :: '"' :: ("invalid".toList ++ ['"', ':']) := by decide
  have key3 : ",\"crc_errors\":".toList = ',' :: '"' :: ("crc_errors".toList ++ ['"', ':']) := by decide
  have key4 : ",\"length_errors\":".toList = ',' :: '"' :: ("length_errors".toList ++ ['"', ':']) := by decide
  have key5 : ",\"replay_errors\":".toList = ',' :: '"' :: ("replay_errors".toList ++ ['"', ':']) := by decide
  have key6 : ",\"header_errors\":".toList = ',' :: '"' :: ("header_errors".toList ++ ['"', ':']) := by decide
  have key7 : ",\"type_errors\":".toList = ',' :: '"' :: ("type_errors".toList ++ ['"', ':']) := by decide
  have key8 : ",\"session_errors\":".toList = ',' :: '"' :: ("session_errors".toList ++ ['"', ':']) := by decide
  have key9 : ",\"bytes_accepted\":".toList = ',' :: '"' :: ("bytes_accepted".toList ++ ['"', ':']) := by decide
  have key10 : ",\"sessions\":".toList = ',' :: '"' :: ("sessions".toList ++ ['"', ':']) := by decide
  have closing : "\x7d".toList = ['\x7d'] := by decide
  unfold Datapath.stats
  dsimp only
  repeat rw [String.toList_append]
  repeat rw [toList_number]
  rw [members, objectText]
  repeat rw [membersText]
  rw [opening, key1, key2, key3, key4, key5, key6, key7, key8, key9, key10, closing]
  simp only [memberText, List.append_assoc, List.cons_append, List.nil_append]

/-- The keys, in the order of the text. -/
def keys : List String :=
  ["datagrams", "accepted", "invalid", "crc_errors", "length_errors", "replay_errors",
    "header_errors", "type_errors", "session_errors", "bytes_accepted", "sessions"]

theorem members_keys (dp : Datapath) : (members dp).map Prod.fst = keys := rfl

theorem keys_plain : ∀ key ∈ keys, key.toList.length ≤ 14 ∧
    ∀ c ∈ key.toList, plain c = true ∧ c.toNat < 128 := by
  have checked : (keys.all fun key => decide (key.toList.length ≤ 14) &&
      key.toList.all fun c => plain c && decide (c.toNat < 128)) = true := by
    decide
  simpa only [List.all_eq_true, Bool.and_eq_true, decide_eq_true_eq] using checked

theorem member_key {dp : Datapath} {member : String × Nat} (here : member ∈ members dp) :
    member.1 ∈ keys :=
  members_keys dp ▸ List.mem_map_of_mem here

theorem member_value {dp : Datapath} (few : dp.sessions ≤ maxSessions) {member : String × Nat}
    (here : member ∈ members dp) : member.2 < 2 ^ 64 := by
  simp only [maxSessions] at few
  simp only [members, List.mem_cons, List.not_mem_nil, or_false] at here
  rcases here with rfl | rfl | rfl | rfl | rfl | rfl | rfl | rfl | rfl | rfl | rfl
  on_goal 11 => exact Nat.lt_of_le_of_lt few (by decide)
  all_goals exact UInt64.toNat_lt _

theorem isDigit_ascii {c : Char} (digit : c.isDigit = true) : c.toNat < 128 := by
  simp only [Char.isDigit, Bool.and_eq_true, decide_eq_true_eq] at digit
  have upper := UInt32.le_iff_toNat_le.mp digit.2
  have nine : '9'.val.toNat = 57 := rfl
  simp only [Char.toNat]
  omega

theorem memberText_ascii {member : String × Nat} (key : ∀ c ∈ member.1.toList, c.toNat < 128) :
    ∀ c ∈ memberText member, c.toNat < 128 := by
  intro c here
  simp only [memberText, List.mem_cons, List.mem_append] at here
  rcases here with rfl | inKey | rfl | rfl | digit
  · decide
  · exact key c inKey
  · decide
  · decide
  · exact isDigit_ascii (isDigit_toDigits digit)

theorem membersText_ascii (list : List (String × Nat))
    (keys : ∀ member ∈ list, ∀ c ∈ member.1.toList, c.toNat < 128) :
    ∀ c ∈ membersText list, c.toNat < 128 := by
  induction list with
  | nil =>
      intro c here
      rw [List.mem_singleton.mp here]
      decide
  | cons member rest ih =>
      have first := memberText_ascii (keys member List.mem_cons_self)
      have later := ih fun other here => keys other (List.mem_cons_of_mem _ here)
      intro c here
      cases rest with
      | nil =>
          simp only [membersText, List.mem_append, List.mem_singleton] at here
          rcases here with inFirst | rfl
          · exact first c inFirst
          · decide
      | cons next rest =>
          simp only [membersText, List.mem_append, List.mem_cons] at here
          rcases here with inFirst | rfl | inRest
          · exact first c inFirst
          · decide
          · exact later c inRest

theorem asciiText_asciiBytes {text : String} (ascii : ∀ c ∈ text.toList, c.toNat < 128) :
    asciiText (asciiBytes text) = text.toList := by
  rw [asciiText, asciiBytes, List.map_map]
  refine (List.map_congr_left fun c here => ?_).trans (List.map_id _)
  have small := ascii c here
  have value : (UInt8.ofNat c.toNat).toNat = c.toNat :=
    UInt8.toNat_ofNat_of_lt' (by simp only [UInt8.size]; omega)
  simp only [Function.comp_apply, value, Char.ofNat_toNat, id_eq]

theorem loads_stats (dp : Datapath) : loads (asciiText (asciiBytes dp.stats)) = some (members dp) := by
  have key {member : String × Nat} (here : member ∈ members dp) :=
    (keys_plain member.1 (member_key here)).2
  have ascii : ∀ c ∈ dp.stats.toList, c.toNat < 128 := by
    rw [stats_toList]
    intro c here
    rcases List.mem_cons.mp here with rfl | rest
    · decide
    · exact membersText_ascii _ (fun member there c inKey => (key there c inKey).2) c rest
  rw [asciiText_asciiBytes ascii, stats_toList]
  exact loads_objectText _ (List.cons_ne_nil _ _) fun member there c inKey => (key there c inKey).1

theorem length_membersText_le {list : List (String × Nat)} {bound : Nat}
    (bounded : ∀ member ∈ list, (memberText member).length ≤ bound) :
    (membersText list).length ≤ (bound + 1) * list.length + 1 := by
  induction list with
  | nil => simp [membersText]
  | cons member rest ih =>
      have first := bounded member List.mem_cons_self
      have later := ih fun other here => bounded other (List.mem_cons_of_mem _ here)
      cases rest with
      | nil =>
          simp only [membersText, List.length_append, List.length_cons, List.length_nil]
          omega
      | cons next rest =>
          simp only [membersText, List.length_append, List.length_cons, Nat.mul_add] at later ⊢
          omega

/-- The text fits in one datagram. -/
theorem length_stats (dp : Datapath) (few : dp.sessions ≤ maxSessions) :
    (asciiBytes dp.stats).length ≤ maxPayload := by
  have bounded : ∀ member ∈ members dp, (memberText member).length ≤ 37 := by
    intro member here
    have key := (keys_plain member.1 (member_key here)).1
    have value := member_value few here
    have digits : (Nat.toDigits 10 member.2).length ≤ 20 := by
      rw [Nat.length_toDigits_le_iff (by decide) (by decide)]
      omega
    simp only [memberText, List.length_cons, List.length_append]
    omega
  have count : (members dp).length = 11 := rfl
  have total := length_membersText_le bounded
  rw [asciiBytes, List.length_map, stats_toList, objectText, List.length_cons]
  rw [count] at total
  simp only [maxPayload]
  omega

/-! ## The exchange -/

theorem isRequest_encode (kind : Kind) : IsRequest kind (encode kind 0 0 []) where
  toWellFormed := wellFormed_encode kind 0 0 [] (by decide)
  requests := by
    rw [header_encode]
    exact ⟨rfl, rfl, rfl, rfl⟩

/-- What `process` does with the request. -/
theorem process_statsRequest (dp : Datapath) :
    process dp (encode .statsRequest 0 0 []) =
      (encode .statsReply 0 0 (asciiBytes dp.received.stats), dp.received) := by
  have request := isRequest_encode .statsRequest
  have verdict := process_verdict dp (encode .statsRequest 0 0 [])
  generalize process dp (encode .statsRequest 0 0 []) = result at verdict ⊢
  cases verdict with
  | stats => rfl
  | malformed _ bad => exact absurd request.toWellFormed bad
  | full isData | replay isData | accepted isData =>
      exact absurd request (not_request_of_data isData (by decide))
  | reset isReset => exact absurd isReset (not_reset_of_stats request)
  | unknown _ _ notStats => exact absurd request notStats

/-- A reply that carries a text. -/
theorem stats_of_reply {zlibCrc32 : List UInt8 → Nat}
    (isIeee : ∀ data, zlibCrc32 data = (ieee data).toNat) {payload : List UInt8}
    (short : payload.length ≤ maxPayload) :
    stats zlibCrc32 (encode .statsReply 0 0 payload) = .ok (loads (asciiText payload)) := by
  rw [stats, decode_encode isIeee .statsReply 0 0 payload short, ok_bind]
  exact if_neg fun other => other rfl

theorem stats_reply {zlibCrc32 : List UInt8 → Nat}
    (isIeee : ∀ data, zlibCrc32 data = (ieee data).toNat) (dp : Datapath)
    (few : dp.sessions ≤ maxSessions) :
    stats zlibCrc32 (process dp (encode .statsRequest 0 0 [])).1 =
      .ok (some (members dp.received)) := by
  have answer : (process dp (encode .statsRequest 0 0 [])).1 =
      encode .statsReply 0 0 (asciiBytes dp.received.stats) :=
    congrArg Prod.fst (process_statsRequest dp)
  rw [answer, stats_of_reply isIeee (length_stats dp.received few), loads_stats]

/-- After any traffic the generator reads the counters of the datapath exactly, each under its
key, and asking changes nothing but the count of datagrams, which the answer includes. -/
theorem stats_reply_exact (zlibCrc32 : List UInt8 → Nat)
    (isIeee : ∀ data, zlibCrc32 data = (ieee data).toNat) (datagrams : List (List UInt8)) :
    ∃ request, (packetOf .statsRequest 0 0 []).encode zlibCrc32 = .ok request ∧
      (process (after {} datagrams) request).2 = (after {} datagrams).received ∧
      stats zlibCrc32 (process (after {} datagrams) request).1 =
        .ok (some (members (after {} datagrams).received)) := by
  refine ⟨encode .statsRequest 0 0 [], packetOf_encode isIeee .statsRequest 0 0 [] (by decide), ?_,
    stats_reply isIeee _ (accounts_after datagrams).sessions⟩
  rw [process_statsRequest]

theorem stats_reply_exact_start :
    stats (fun data => (ieee data).toNat) (process {} (encode .statsRequest 0 0 [])).1 =
      .ok (some (members (Datapath.received {}))) := by
  obtain ⟨request, encoded, -, answer⟩ :=
    stats_reply_exact (fun data => (ieee data).toNat) (fun _ => rfl) []
  have same := packetOf_encode (fun _ => rfl) .statsRequest 0 0 [] (by decide)
  obtain rfl := Except.ok.inj (same.symm.trans encoded)
  exact answer

end EmbeddedRuntime.Nver.StatsReply
