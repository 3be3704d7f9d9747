import Mathlib.Data.List.Basic
import EmbeddedRuntime.Transport.Echo

/-!
# The benchmark client of `ai-networking-benchmark-lab/src/transport.cpp`

The client sends its requests in batches of `--window` frames, reads one response
for each and compares it with the request of that number.  It stops at the first
response that differs.  The clock is left out: of the report, what does not
depend on it is kept.
-/

set_option autoImplicit false

namespace EmbeddedRuntime.Transport.Bench

open EmbeddedRuntime.Lib.ByteOrder
open EmbeddedRuntime.Lib.Deliveries
open EmbeddedRuntime.Protocol.Stream (Transfer Delivers)
open EmbeddedRuntime.Transport.Frames
open EmbeddedRuntime.Transport.Echo

/-- The options of `bench` within the ranges that `number` checks. -/
structure Options where
  count : Nat
  bytes : Nat
  window : Nat
  warmup : Nat
  count_range : 1 ≤ count ∧ count ≤ 1000000
  bytes_range : bytes ≤ MAX_BODY
  window_range : 1 ≤ window ∧ window ≤ 1024
  warmup_range : warmup ≤ 100000

namespace Options

variable (options : Options)

def total : Nat := options.warmup + options.count

/-- The size of the batch that begins at an offset. -/
def batch (offset : Nat) : Nat := min options.window (options.total - offset)

end Options

def payloadData (bytes : Nat) (seq : UInt32) : List UInt8 :=
  (List.range bytes).map fun i => UInt8.ofNat (i * 31 + seq.toNat)

/-- What the report says apart from the times: the bytes counted in both directions and
the number of latencies the percentiles are taken of. -/
structure Report where
  recordedBytes : Nat
  latencies : Nat
  deriving DecidableEq, Repr

/-- The report after one more response is verified. -/
def record (options : Options) (position : Nat) (report : Report) : Report :=
  if options.warmup ≤ position then
    { latencies := if options.window = 1 then report.latencies + 1 else report.latencies
      recordedBytes := report.recordedBytes + 2 * options.bytes }
  else report

/-- What the `send` calls moved, the calls left, and the message of an exception. -/
structure Sent where
  sent : List UInt8
  rest : List Transfer
  thrown : Option String
  deriving DecidableEq, Repr

/-- The requests of a batch: `left` frames from the `j`-th on. -/
def sendBatch (options : Options) (offset j : Nat) : Nat → List Transfer → Sent
  | 0, writes => ⟨[], writes, none⟩
  | left + 1, writes =>
      let seq := UInt32.ofNat (offset + j + 1)
      match encode seq (payloadData options.bytes seq) with
      | .error text => ⟨[], writes, some text⟩
      | .ok wire =>
          let written := writeAll wire writes
          if written.ok then
            let later := sendBatch options offset (j + 1) left written.rest
            { later with sent := written.sent ++ later.sent }
          else ⟨written.sent, written.rest, some "send error/closed"⟩

/-- One response, compared with the request of its number. -/
def readResponse (options : Options) (expected : UInt32) (input : List (Delivery UInt8)) :
    Except String (List (Delivery UInt8)) :=
  match readFrame input with
  | .error text => .error text
  | .ok none => .error "connection closed mid-run"
  | .ok (some (response, rest)) =>
      if response.seq ≠ expected ∨ response.payload ≠ payloadData options.bytes expected then
        .error "payload/sequence corruption or reordering"
      else .ok rest

/-- The responses to a batch: `left` frames from the `j`-th on. -/
def readBatch (options : Options) (offset j : Nat) :
    Nat → List (Delivery UInt8) → Report → Except String (List (Delivery UInt8) × Report)
  | 0, input, report => .ok (input, report)
  | left + 1, input, report =>
      match readResponse options (UInt32.ofNat (offset + j + 1)) input with
      | .error text => .error text
      | .ok rest => readBatch options offset (j + 1) left rest (record options (offset + j) report)

/-- The bytes that the client sent, and its report or the message of its exception. -/
structure Benched where
  sent : List UInt8
  outcome : Except String Report

/-- The loop over the batches. -/
def benchLoop (options : Options) (offset : Nat) (writes : List Transfer)
    (input : List (Delivery UInt8)) (report : Report) : Benched :=
  if offset < options.total then
    let requests := sendBatch options offset 0 (options.batch offset) writes
    match requests.thrown with
    | some text => ⟨requests.sent, .error text⟩
    | none =>
        match readBatch options offset 0 (options.batch offset) input report with
        | .error text => ⟨requests.sent, .error text⟩
        | .ok (rest, report) =>
            let later := benchLoop options (offset + options.batch offset) requests.rest rest report
            { later with sent := requests.sent ++ later.sent }
  else ⟨[], .ok report⟩
termination_by options.total - offset
decreasing_by
  have window := options.window_range
  simp only [Options.batch]
  omega

/-- `client` after it has connected. -/
def client (options : Options) (writes : List Transfer) (input : List (Delivery UInt8)) : Benched :=
  benchLoop options 0 writes input ⟨0, 0⟩

/-! ## Requests on the wire -/

/-- The `n`-th request, and the response it is to get. -/
def request (options : Options) (n : Nat) : Frame :=
  ⟨UInt32.ofNat n, payloadData options.bytes (UInt32.ofNat n)⟩

theorem length_request (options : Options) (n : Nat) :
    (request options n).payload.length = options.bytes := by
  simp [request, payloadData]

theorem request_small (options : Options) (n : Nat) :
    (request options n).payload.length ≤ MAX_BODY := by
  rw [length_request]
  exact options.bytes_range

/-- The requests after the first `past`, as one stream. -/
def stream (options : Options) (past count : Nat) : List UInt8 :=
  ((List.range' (past + 1) count).map fun n => frameBytes (request options n)).flatten

@[simp] theorem stream_zero (options : Options) (past : Nat) : stream options past 0 = [] := rfl

theorem stream_succ (options : Options) (past count : Nat) :
    stream options past (count + 1) =
      frameBytes (request options (past + 1)) ++ stream options (past + 1) count := rfl

theorem stream_add (options : Options) (past first second : Nat) :
    stream options past (first + second) =
      stream options past first ++ stream options (past + first) second := by
  induction first generalizing past with
  | zero => simp
  | succ first ih =>
      rw [Nat.succ_add, stream_succ, stream_succ, ih, List.append_assoc, Nat.add_right_comm past,
        Nat.add_assoc past first]

theorem sendBatch_delivers (options : Options) (offset j left : Nat) (writes : List Transfer)
    (delivers : Delivers writes) : ∃ rest, Delivers rest ∧
      sendBatch options offset j left writes = ⟨stream options (offset + j) left, rest, none⟩ := by
  induction left generalizing j writes with
  | zero => exact ⟨writes, delivers, rfl⟩
  | succ left ih =>
      obtain ⟨calls, deliversCalls, written⟩ := writeAll_delivers writes delivers
        (frameBytes (request options (offset + j + 1)))
      obtain ⟨rest, deliversRest, later⟩ := ih (j + 1) calls deliversCalls
      have encoded := encode_eq (request options (offset + j + 1)) (request_small options _)
      simp only [request] at encoded written
      refine ⟨rest, deliversRest, ?_⟩
      simp only [sendBatch, encoded, written, if_true, later]
      rfl

/-! ## Responses off the wire -/

/-- One response read off the whole stream at once. -/
def judge (options : Options) (n : Nat) (bytes : List UInt8) : Except String (List UInt8) :=
  match receive bytes with
  | .error text => .error text
  | .ok none => .error "connection closed mid-run"
  | .ok (some (response, rest)) =>
      if response ≠ request options n then .error "payload/sequence corruption or reordering"
      else .ok rest

/-- The result of one read beside the one off the whole stream. -/
theorem readResponse_judge (options : Options) (n : Nat) {input : List (Delivery UInt8)}
    (steady : Steady input) :
    (∀ text, judge options n (contents input) = .error text →
      readResponse options (UInt32.ofNat n) input = .error text) ∧
    (∀ left, judge options n (contents input) = .ok left → ∃ rest, Steady rest ∧
      contents rest = left ∧ readResponse options (UInt32.ofNat n) input = .ok rest) := by
  have agrees := readFrame_agrees steady
  unfold judge readResponse
  generalize readFrame input = result at agrees
  generalize receive (contents input) = received at agrees
  cases agrees with
  | thrown text =>
      refine ⟨fun other same => ?_, fun _ other => by cases other⟩
      rw [← Except.error.inj same]
  | closed =>
      refine ⟨fun other same => ?_, fun _ other => by cases other⟩
      rw [← Except.error.inj same]
  | frame response steadyRest =>
      have same : response ≠ request options n ↔ response.seq ≠ UInt32.ofNat n ∨
          response.payload ≠ payloadData options.bytes (UInt32.ofNat n) := by
        cases response
        simp only [request, ne_eq, Frame.mk.injEq, not_and_or]
      simp only [same]
      by_cases differs : response.seq ≠ UInt32.ofNat n ∨
          response.payload ≠ payloadData options.bytes (UInt32.ofNat n)
      · simp only [if_pos differs]
        refine ⟨fun other same => ?_, fun _ other => by cases other⟩
        rw [← Except.error.inj same]
      · simp only [if_neg differs]
        refine ⟨fun _ other => (by cases other), fun left here => ?_⟩
        exact ⟨_, steadyRest, Except.ok.inj here, rfl⟩

theorem judge_ok_iff (options : Options) (n : Nat) (bytes left : List UInt8) :
    judge options n bytes = .ok left ↔ bytes = frameBytes (request options n) ++ left := by
  constructor
  · intro accepted
    unfold judge at accepted
    split at accepted
    next => cases accepted
    next => cases accepted
    next response rest received =>
      split_ifs at accepted with same
      · obtain rfl := not_not.mp same
        obtain rfl := Except.ok.inj accepted
        exact (frameBytes_of_receive received).1
  · rintro rfl
    simp [judge, receive_frameBytes _ (request_small options n)]

/-- The report after the responses `past + 1` to `past + count`. -/
def recordAll (options : Options) : (past count : Nat) → Report → Report
  | _, 0, report => report
  | past, count + 1, report => recordAll options (past + 1) count (record options past report)

theorem recordAll_add (options : Options) (past first second : Nat) (report : Report) :
    recordAll options past (first + second) report =
      recordAll options (past + first) second (recordAll options past first report) := by
  induction first generalizing past report with
  | zero => simp [recordAll]
  | succ first ih =>
      rw [Nat.succ_add, recordAll, recordAll, ih, Nat.add_right_comm past, Nat.add_assoc past first]

theorem readBatch_verified (options : Options) (offset j left : Nat) (report : Report)
    {input : List (Delivery UInt8)} (steady : Steady input) {more : List UInt8}
    (bytes : contents input = stream options (offset + j) left ++ more) :
    ∃ rest, Steady rest ∧ contents rest = more ∧
      readBatch options offset j left input report =
        .ok (rest, recordAll options (offset + j) left report) := by
  induction left generalizing j input report with
  | zero => exact ⟨input, steady, bytes, rfl⟩
  | succ left ih =>
      rw [stream_succ, List.append_assoc] at bytes
      obtain ⟨later, steadyLater, left_, read⟩ :=
        (readResponse_judge options (offset + j + 1) steady).2 _
          ((judge_ok_iff options _ _ _).mpr bytes)
      obtain ⟨rest, steadyRest, restBytes, equal⟩ :=
        ih (j + 1) (record options (offset + j) report) steadyLater left_
      exact ⟨rest, steadyRest, restBytes, by simp only [readBatch, read, equal]; rfl⟩

theorem readBatch_stops (options : Options) (offset j good left : Nat) (report : Report)
    {input : List (Delivery UInt8)} (steady : Steady input) {more : List UInt8} {text : String}
    (bytes : contents input = stream options (offset + j) good ++ more) (short : good < left)
    (stops : judge options (offset + j + good + 1) more = .error text) :
    readBatch options offset j left input report = .error text := by
  induction good generalizing j left input report with
  | zero =>
      obtain ⟨left, rfl⟩ := Nat.exists_eq_add_of_lt short
      rw [stream_zero, List.nil_append] at bytes
      rw [← bytes] at stops
      have read := (readResponse_judge options (offset + j + 1) steady).1 text stops
      rw [Nat.zero_add, readBatch, read]
  | succ good ih =>
      obtain ⟨left, rfl⟩ : ∃ other, left = other + 1 := ⟨left - 1, by omega⟩
      rw [stream_succ, List.append_assoc] at bytes
      obtain ⟨later, steadyLater, left_, read⟩ :=
        (readResponse_judge options (offset + j + 1) steady).2 _
          ((judge_ok_iff options _ _ _).mpr bytes)
      rw [readBatch, read]
      refine ih (j + 1) left (record options (offset + j) report) steadyLater left_ (by omega) ?_
      rwa [← Nat.add_assoc offset, Nat.add_right_comm _ 1 good]

/-! ## The loop over the batches -/

/-- The requests that are sent when the response after `verified` is not the one expected: those
up to the end of its batch. -/
def Options.sentBy (options : Options) (verified : Nat) : Nat :=
  min options.total ((verified / options.window + 1) * options.window)

theorem benchLoop_verified (options : Options) (offset : Nat) (writes : List Transfer)
    (input : List (Delivery UInt8)) (report : Report) (delivers : Delivers writes)
    (steady : Steady input) (more : List UInt8) (count : Nat)
    (total : offset + count = options.total)
    (bytes : contents input = stream options offset count ++ more) :
    benchLoop options offset writes input report =
      ⟨stream options offset count, .ok (recordAll options offset count report)⟩ := by
  induction count using Nat.strongRecOn generalizing offset writes input report with
  | _ count ih =>
      rw [benchLoop]
      by_cases done : count = 0
      · rw [if_neg (by omega), done]
        rfl
      rw [if_pos (by omega)]
      have window := options.window_range
      have positive : 0 < options.batch offset := by
        simp only [Options.batch]
        omega
      obtain ⟨later, split⟩ : ∃ later, count = options.batch offset + later :=
        ⟨count - options.batch offset, by simp only [Options.batch]; omega⟩
      obtain ⟨calls, deliversCalls, sent⟩ :=
        sendBatch_delivers options offset 0 (options.batch offset) writes delivers
      rw [split, stream_add, List.append_assoc] at bytes
      obtain ⟨rest, steadyRest, restBytes, read⟩ :=
        readBatch_verified options offset 0 (options.batch offset) report steady bytes
      have next := ih later (by omega) (offset + options.batch offset) calls rest
        (recordAll options offset (options.batch offset) report) deliversCalls steadyRest (by omega)
        restBytes
      simp only [sent, read, Nat.add_zero, next, split, stream_add, recordAll_add]

theorem benchLoop_stops (options : Options) (offset : Nat) (writes : List Transfer)
    (input : List (Delivery UInt8)) (report : Report) (delivers : Delivers writes)
    (steady : Steady input) (more : List UInt8) (good : Nat) (text : String)
    (boundary : options.window ∣ offset) (short : offset + good < options.total)
    (bytes : contents input = stream options offset good ++ more)
    (stops : judge options (offset + good + 1) more = .error text) :
    benchLoop options offset writes input report =
      ⟨stream options offset (options.sentBy (offset + good) - offset), .error text⟩ := by
  induction good using Nat.strongRecOn generalizing offset writes input report with
  | _ good ih =>
      have window := options.window_range
      obtain ⟨batches, rfl⟩ := boundary
      obtain ⟨calls, deliversCalls, sent⟩ :=
        sendBatch_delivers options (options.window * batches) 0
          (options.batch (options.window * batches)) writes delivers
      rw [benchLoop, if_pos (by omega)]
      by_cases here : good < options.batch (options.window * batches)
      · have read := readBatch_stops options (options.window * batches) 0 good
          (options.batch (options.window * batches)) report steady bytes here stops
        have within : good < options.window := by
          simp only [Options.batch] at here
          omega
        have quotient : (options.window * batches + good) / options.window = batches := by
          rw [Nat.mul_add_div (by omega), Nat.div_eq_of_lt within, Nat.add_zero]
        have count : options.sentBy (options.window * batches + good) - options.window * batches =
            options.batch (options.window * batches) := by
          rw [Options.sentBy, quotient, Options.batch, Nat.succ_mul, Nat.mul_comm batches]
          omega
        simp only [sent, read, count, Nat.add_zero]
      · have full : options.batch (options.window * batches) = options.window := by
          simp only [Options.batch] at here ⊢
          omega
        obtain ⟨later, rfl⟩ : ∃ later, good = options.window + later :=
          ⟨good - options.window, by omega⟩
        rw [stream_add, List.append_assoc] at bytes
        obtain ⟨rest, steadyRest, restBytes, read⟩ :=
          readBatch_verified options (options.window * batches) 0 _ report steady bytes
        rw [full] at sent
        have next := ih later (by omega) (options.window * batches + options.window) calls rest
          (recordAll options (options.window * batches) options.window report) deliversCalls
          steadyRest ⟨batches + 1, by rw [Nat.mul_add_one]⟩ (by omega) restBytes
          (by rwa [← Nat.add_assoc] at stops)
        have past : options.window * batches + options.window ≤
            options.sentBy (options.window * batches + options.window + later) := by
          have quotient : (options.window * batches + options.window + later) / options.window =
              batches + 1 + later / options.window := by
            rw [← Nat.mul_add_one, Nat.mul_add_div (by omega)]
          rw [Options.sentBy, quotient]
          refine Nat.le_min.mpr ⟨by omega, ?_⟩
          calc options.window * batches + options.window = options.window * (batches + 1) := rfl
            _ ≤ options.window * (batches + 1 + later / options.window + 1) :=
              Nat.mul_le_mul_left _ (Nat.le_trans (Nat.le_add_right ..) (Nat.le_succ _))
            _ = (batches + 1 + later / options.window + 1) * options.window := Nat.mul_comm ..
        rw [full]
        simp only [sent, read, Nat.add_zero, next, Benched.mk.injEq, and_true]
        rw [← stream_add, ← Nat.add_assoc]
        congr 1
        omega

/-! ## Any peer -/

/-- Every stream holds all the responses, or some and then bytes that are not the next one. -/
theorem stream_prefix_or_stops (options : Options) (past count : Nat) (bytes : List UInt8) :
    (∃ more, bytes = stream options past count ++ more) ∨
      ∃ good more text, good < count ∧ bytes = stream options past good ++ more ∧
        judge options (past + good + 1) more = .error text := by
  induction count generalizing past bytes with
  | zero => exact Or.inl ⟨bytes, rfl⟩
  | succ count ih =>
      cases judged : judge options (past + 1) bytes with
      | error text => exact Or.inr ⟨0, bytes, text, Nat.succ_pos _, rfl, judged⟩
      | ok left =>
          rw [judge_ok_iff] at judged
          rcases ih (past + 1) left with ⟨more, rest⟩ | ⟨good, more, text, short, rest, stops⟩
          · exact Or.inl ⟨more, by rw [judged, rest, stream_succ, List.append_assoc]⟩
          · refine Or.inr ⟨good + 1, more, text, by omega, ?_, ?_⟩
            · rw [judged, rest, stream_succ, List.append_assoc]
            · rwa [← Nat.add_assoc, Nat.add_right_comm past]

theorem recordAll_eq (options : Options) (past count : Nat) (report : Report) :
    recordAll options past count report =
      ⟨report.recordedBytes + 2 * options.bytes * (past + count - max past options.warmup),
        if options.window = 1 then report.latencies + (past + count - max past options.warmup)
        else report.latencies⟩ := by
  induction count generalizing past report with
  | zero => simp [recordAll, Nat.sub_eq_zero_of_le (Nat.le_max_left past options.warmup)]
  | succ count ih =>
      rw [recordAll, ih, record]
      by_cases warm : options.warmup ≤ past
      · have before : past + (count + 1) - max past options.warmup = count + 1 := by
          rw [Nat.max_eq_left warm, Nat.add_sub_cancel_left]
        have after : past + 1 + count - max (past + 1) options.warmup = count := by
          rw [Nat.max_eq_left (Nat.le_succ_of_le warm), Nat.add_sub_cancel_left]
        have sum : report.recordedBytes + 2 * options.bytes * (count + 1) =
            report.recordedBytes + 2 * options.bytes + 2 * options.bytes * count := by
          rw [Nat.mul_add_one, Nat.add_assoc, Nat.add_comm (2 * options.bytes)]
        rw [before, after, if_pos warm, sum, ← Nat.add_assoc report.latencies,
          Nat.add_right_comm report.latencies]
        split_ifs
        · rfl
        · rfl
      · have same : past + (count + 1) - max past options.warmup =
            past + 1 + count - max (past + 1) options.warmup := by
          rw [Nat.max_eq_right (show past ≤ options.warmup by omega),
            Nat.max_eq_right (show past + 1 ≤ options.warmup by omega)]
          omega
        rw [same, if_neg warm]

/-- The report of a run whose responses are all verified. -/
def Options.verified (options : Options) : Report :=
  ⟨2 * options.bytes * options.count, if options.window = 1 then options.count else 0⟩

theorem recordAll_total (options : Options) :
    recordAll options 0 options.total ⟨0, 0⟩ = options.verified := by
  have counted : 0 + options.total - max 0 options.warmup = options.count := by
    simp only [Options.total]
    omega
  rw [recordAll_eq, counted, Options.verified, Nat.zero_add, Nat.zero_add]

theorem client_verified (options : Options) {writes : List Transfer}
    {input : List (Delivery UInt8)} (delivers : Delivers writes) (steady : Steady input)
    {more : List UInt8} (bytes : contents input = stream options 0 options.total ++ more) :
    client options writes input =
      ⟨stream options 0 options.total, .ok options.verified⟩ := by
  rw [client, benchLoop_verified options 0 writes input ⟨0, 0⟩ delivers steady more options.total
    (Nat.zero_add _) bytes, recordAll_total]

theorem client_stops (options : Options) {writes : List Transfer}
    {input : List (Delivery UInt8)} (delivers : Delivers writes) (steady : Steady input)
    {more : List UInt8} {good : Nat} {text : String} (short : good < options.total)
    (bytes : contents input = stream options 0 good ++ more)
    (stops : judge options (good + 1) more = .error text) :
    client options writes input = ⟨stream options 0 (options.sentBy good), .error text⟩ := by
  have ends := benchLoop_stops options 0 writes input ⟨0, 0⟩ delivers steady more good text
    (Nat.dvd_zero _) (by omega) bytes (by rwa [Nat.zero_add])
  rwa [Nat.zero_add, Nat.sub_zero] at ends

/-- The messages of the exceptions that a response can cause. -/
def responseErrors : List String :=
  readErrors ++ ["connection closed mid-run", "payload/sequence corruption or reordering"]

theorem judge_error {options : Options} {n : Nat} {bytes : List UInt8} {text : String}
    (thrown : judge options n bytes = .error text) : text ∈ responseErrors := by
  unfold judge at thrown
  split at thrown
  next other received =>
    obtain rfl := Except.error.inj thrown
    exact List.mem_append_left _ (receive_error received)
  next =>
    obtain rfl := Except.error.inj thrown
    decide
  next =>
    split_ifs at thrown
    obtain rfl := Except.error.inj thrown
    decide

/-- The client reports `verified` for one kind of stream only, whoever sends it: all the
responses, in order and unchanged.  Otherwise it ends with a message about the first response
that is missing or wrong, and has sent no batch after the one of that response. -/
theorem client_verifies_iff (options : Options) (writes : List Transfer)
    (delivers : Delivers writes) (input : List (Delivery UInt8)) (steady : Steady input) :
    (∀ report, (client options writes input).outcome = .ok report ↔
      report = options.verified ∧ stream options 0 options.total <+: contents input) ∧
    (¬ stream options 0 options.total <+: contents input →
      ∃ verified < options.total, ∃ text ∈ responseErrors,
        stream options 0 verified <+: contents input ∧
        ¬ stream options 0 (verified + 1) <+: contents input ∧
        client options writes input = ⟨stream options 0 (options.sentBy verified), .error text⟩) := by
  rcases stream_prefix_or_stops options 0 options.total (contents input) with
    ⟨more, bytes⟩ | ⟨good, more, text, short, bytes, stops⟩
  · have whole : stream options 0 options.total <+: contents input := ⟨more, bytes.symm⟩
    refine ⟨fun report => ?_, fun cut => absurd whole cut⟩
    rw [client_verified options delivers steady bytes]
    constructor
    · intro same
      exact ⟨(Except.ok.inj same).symm, whole⟩
    · rintro ⟨rfl, -⟩
      rfl
  · rw [Nat.zero_add] at stops
    have next : ¬ stream options 0 (good + 1) <+: contents input := by
      rintro ⟨rest, same⟩
      rw [bytes, stream_add, List.append_assoc, List.append_cancel_left_eq, stream_succ,
        stream_zero, List.append_nil, Nat.zero_add] at same
      rw [(judge_ok_iff options (good + 1) more rest).mpr same.symm] at stops
      cases stops
    have cut : ¬ stream options 0 options.total <+: contents input := by
      obtain ⟨later, split⟩ := Nat.exists_eq_add_of_lt short
      rw [split, Nat.add_right_comm, stream_add]
      exact fun whole => next ((List.prefix_append ..).trans whole)
    have ends := client_stops options delivers steady short bytes stops
    refine ⟨fun report => ?_, fun _ => ⟨good, short, text, judge_error stops,
      ⟨more, bytes.symm⟩, next, ends⟩⟩
    rw [ends]
    exact ⟨fun other => (by cases other), fun both => absurd both.2 cut⟩

/-- One request of two bytes, measured alone. -/
def oneRequest : Options :=
  ⟨1, 2, 1, 0, by decide, by decide, by decide, by decide⟩

/-- A response that arrives in two pieces. -/
def twoPieces : List (Delivery UInt8) :=
  [.data ((stream oneRequest 0 1).take 5), .interrupted, .data ((stream oneRequest 0 1).drop 5)]

theorem steady_twoPieces : Steady twoPieces := by
  constructor
  · intro here
    simp [twoPieces, stream, request, frameBytes, headerOf, be32] at here
  · intro here
    simp [twoPieces] at here

theorem contents_twoPieces : contents twoPieces = stream oneRequest 0 oneRequest.total := by
  simp [twoPieces, contents, oneRequest, Options.total]

theorem client_verifies_one_request :
    (client oneRequest [.moved 3] twoPieces).outcome = .ok ⟨4, 1⟩ :=
  ((client_verifies_iff oneRequest [.moved 3] (by simp [Delivers]) twoPieces
    steady_twoPieces).1 _).mpr ⟨rfl, contents_twoPieces ▸ List.prefix_refl _⟩

/-! ## The server as the peer -/

/-- The server's answers to the requests after the first `past`. -/
def answers (options : Options) (corruptEvery : UInt32) (past count : Nat) : List UInt8 :=
  ((List.range' (past + 1) count).map fun n =>
    replyBytes corruptEvery n (request options n)).flatten

theorem answers_succ (options : Options) (corruptEvery : UInt32) (past count : Nat) :
    answers options corruptEvery past (count + 1) =
      replyBytes corruptEvery (past + 1) (request options (past + 1)) ++
        answers options corruptEvery (past + 1) count := rfl

theorem answers_add (options : Options) (corruptEvery : UInt32) (past first second : Nat) :
    answers options corruptEvery past (first + second) =
      answers options corruptEvery past first ++
        answers options corruptEvery (past + first) second := by
  rw [answers, answers, answers, ← List.flatten_append, ← List.map_append,
    Nat.add_right_comm past first 1, List.range'_append_1]

/-- Answers that are not corrupted are the requests. -/
theorem answers_eq_stream (options : Options) (corruptEvery : UInt32) (past count : Nat)
    (clean : ∀ n, past < n → n ≤ past + count → ¬ Corrupts corruptEvery n (request options n)) :
    answers options corruptEvery past count = stream options past count := by
  refine congrArg List.flatten (List.map_congr_left fun n here => ?_)
  rw [List.mem_range'_1] at here
  rw [replyBytes, if_neg (clean n (by omega) (by omega))]

/-- A corrupted answer is refused by its checksum. -/
theorem judge_corrupted (options : Options) {corruptEvery : UInt32} {n : Nat}
    (corrupts : Corrupts corruptEvery n (request options n)) (more : List UInt8) :
    judge options n (replyBytes corruptEvery n (request options n) ++ more) =
      .error "bad payload CRC" := by
  obtain ⟨payload, length, differ, same⟩ := corrupt_frameBytes (request options n) corrupts.2.2
  rw [judge, replyBytes, if_pos corrupts, same, ← length,
    receive_headerOf _ _ _ _ (length ▸ request_small options n), if_pos differ]

theorem readFrame_front {input : List (Delivery UInt8)} (steady : Steady input) {frame : Frame}
    (small : frame.payload.length ≤ MAX_BODY) {more : List UInt8}
    (bytes : contents input = frameBytes frame ++ more) :
    ∃ rest, Steady rest ∧ contents rest = more ∧ readFrame input = .ok (some (frame, rest)) := by
  have clean : ¬ Corrupts 0 0 frame := fun corrupts => absurd corrupts.1 (by decide)
  have read := readFrame_replyBytes 0 0 frame small more steady (by rwa [replyBytes, if_neg clean])
  rwa [if_neg clean] at read

/-- A connection that carries whole frames and then ends is closed without an exception. -/
theorem serveLoop_closed (corruptEvery : UInt32) (frames : List Frame)
    (sizes : ∀ frame ∈ frames, frame.payload.length ≤ MAX_BODY) (n : Nat)
    (writes : List Transfer) (delivers : Delivers writes) (input : List (Delivery UInt8))
    (steady : Steady input) (bytes : contents input = (frames.map frameBytes).flatten) :
    (serveLoop corruptEvery (UInt64.ofNat n) writes input).closed = none := by
  induction frames generalizing n writes input with
  | nil =>
      have closed := (readFrame_closed_iff steady).mpr bytes
      rw [serveLoop]
      split
      next other =>
        rw [closed] at other
        cases other
      next => rfl
      next other =>
        rw [closed] at other
        cases Except.ok.inj other
  | cons frame frames ih =>
      have small := sizes frame List.mem_cons_self
      obtain ⟨rest, steadyRest, left, read⟩ := readFrame_front steady small bytes
      obtain ⟨calls, deliversLeft, written⟩ :=
        writeAll_delivers writes delivers (replyBytes corruptEvery (n + 1) frame)
      have next := ih (fun other here => sizes other (List.mem_cons_of_mem _ here)) (n + 1) calls
        deliversLeft rest steadyRest left
      have count : UInt64.ofNat n + 1 = UInt64.ofNat (n + 1) := (UInt64.ofNat_add n 1).symm
      rw [serveLoop_frame corruptEvery _ writes read, count,
        reply_eq corruptEvery (n + 1) frame small]
      simp only [written, if_true, next]

/-- What the server does with a number of requests. -/
theorem serveConnection_requests (options : Options) (corruptEvery : UInt32)
    {writes : List Transfer} (delivers : Delivers writes) {input : List (Delivery UInt8)}
    (steady : Steady input) {count : Nat} (bytes : contents input = stream options 0 count) :
    (serveConnection corruptEvery writes input).sent = answers options corruptEvery 0 count ∧
      (serveConnection corruptEvery writes input).closed = none := by
  have sizes : ∀ frame ∈ (List.range' 1 count).map (request options),
      frame.payload.length ≤ MAX_BODY := by
    intro frame here
    obtain ⟨n, -, rfl⟩ := List.mem_map.mp here
    exact request_small options n
  have frames : contents input =
      (((List.range' 1 count).map (request options)).map frameBytes).flatten := by
    rw [bytes, List.map_map]
    rfl
  refine ⟨?_, serveLoop_closed corruptEvery _ sizes 0 writes delivers input steady frames⟩
  have sent := serveLoop_sent corruptEvery _ sizes [] noFrame_nil 0 writes delivers input steady
    (by rw [frames, List.append_nil])
  have numbered : ((List.range' 1 count).map (request options)).mapIdx
      (fun i frame => replyBytes corruptEvery (0 + i + 1) frame) =
      (List.range' 1 count).map fun n => replyBytes corruptEvery n (request options n) := by
    apply List.ext_getElem
    · simp
    · intro i _ _
      simp [Nat.add_comm 1 i]
  rw [numbered] at sent
  exact sent

/-- The server corrupts the answer to a request that the client makes. -/
def Injects (options : Options) (corruptEvery : UInt32) : Prop :=
  0 < corruptEvery.toNat ∧ corruptEvery.toNat ≤ options.total ∧ 0 < options.bytes

instance (options : Options) (corruptEvery : UInt32) : Decidable (Injects options corruptEvery) :=
  inferInstanceAs (Decidable (_ ∧ _ ∧ _))

theorem Options.total_small (options : Options) : options.total < 2 ^ 64 := by
  have count := options.count_range
  have warmup := options.warmup_range
  simp only [Options.total]
  omega

theorem corrupts_request_iff (options : Options) (corruptEvery : UInt32) {n : Nat}
    (small : n ≤ options.total) :
    Corrupts corruptEvery n (request options n) ↔
      0 < corruptEvery.toNat ∧ corruptEvery.toNat ∣ n ∧ 0 < options.bytes := by
  have total := options.total_small
  rw [Corrupts, Nat.mod_eq_of_lt (by omega), ← List.length_pos_iff, length_request]

/-- The benchmark against the server, however the bytes are cut on their way: without an injected
fault every response is verified, the report is exact and the server closes in good order; with
one the client stops at the first corrupted response and nothing else stops it. -/
theorem bench_exchange (options : Options) (corruptEvery : UInt32)
    (clientWrites serverWrites : List Transfer) (toServer toClient : List (Delivery UInt8))
    (clientDelivers : Delivers clientWrites) (serverDelivers : Delivers serverWrites)
    (steadyServer : Steady toServer) (steadyClient : Steady toClient)
    (requested : contents toServer = (client options clientWrites toClient).sent)
    (answered : contents toClient = (serveConnection corruptEvery serverWrites toServer).sent) :
    if Injects options corruptEvery then
      client options clientWrites toClient =
        ⟨stream options 0 (options.sentBy (corruptEvery.toNat - 1)), .error "bad payload CRC"⟩
    else
      client options clientWrites toClient =
        ⟨stream options 0 options.total, .ok options.verified⟩ ∧
      (serveConnection corruptEvery serverWrites toServer).closed = none := by
  have window := options.window_range
  -- The client sends the requests up to the end of some batch, and the server answers those.
  obtain ⟨count, within, sent⟩ : ∃ count ≤ options.total,
      (client options clientWrites toClient).sent = stream options 0 count := by
    rcases stream_prefix_or_stops options 0 options.total (contents toClient) with
      ⟨more, bytes⟩ | ⟨good, more, text, short, bytes, stops⟩
    · exact ⟨_, Nat.le_refl _, congrArg Benched.sent
        (client_verified options clientDelivers steadyClient bytes)⟩
    · rw [Nat.zero_add] at stops
      exact ⟨options.sentBy good, Nat.min_le_left _ _, congrArg Benched.sent
        (client_stops options clientDelivers steadyClient short bytes stops)⟩
  rw [sent] at requested
  obtain ⟨replies, closed⟩ :=
    serveConnection_requests options corruptEvery serverDelivers steadyServer requested
  rw [replies] at answered
  have corrupts (n : Nat) (small : n ≤ options.total) :=
    corrupts_request_iff options corruptEvery small
  by_cases injects : corruptEvery.toNat ≤ count ∧ Injects options corruptEvery
  · -- The first corrupted answer is among them.
    obtain ⟨reached, positive, -, bytes⟩ := injects
    obtain ⟨later, split⟩ := Nat.exists_eq_add_of_le reached
    obtain ⟨past, first⟩ : ∃ past, corruptEvery.toNat = past + 1 :=
      ⟨corruptEvery.toNat - 1, by omega⟩
    have clean : answers options corruptEvery 0 past = stream options 0 past := by
      refine answers_eq_stream options corruptEvery 0 past fun n above below corrupted => ?_
      have divides := ((corrupts n (by omega)).mp corrupted).2.1
      exact absurd (Nat.le_of_dvd above divides) (by omega)
    have corrupted : Corrupts corruptEvery (past + 1) (request options (past + 1)) := by
      rw [corrupts _ (by omega), first]
      exact ⟨by omega, Nat.dvd_refl _, bytes⟩
    rw [split, first, answers_add, answers_add, clean, Nat.zero_add, List.append_assoc,
      answers_succ, answers, List.append_assoc] at answered
    have stops := client_stops options clientDelivers steadyClient (by omega) answered
      (judge_corrupted options corrupted _)
    rw [if_pos ⟨positive, by omega, bytes⟩, stops, first, Nat.add_sub_cancel]
  · -- All answers are the requests, so the batch was verified and it was the last one.
    have clean : answers options corruptEvery 0 count = stream options 0 count := by
      refine answers_eq_stream options corruptEvery 0 count fun n above below corrupted => ?_
      obtain ⟨positive, divides, bytes⟩ := (corrupts n (by omega)).mp corrupted
      have least := Nat.le_of_dvd above divides
      exact injects ⟨by omega, positive, by omega, bytes⟩
    rw [clean] at answered
    rcases Nat.lt_or_ge count options.total with short | all
    · have ended : judge options (count + 1) [] = .error "connection closed mid-run" := rfl
      have stops := client_stops options clientDelivers steadyClient short
        (answered.trans (List.append_nil _).symm) ended
      have longer : count < options.sentBy count := by
        rw [Options.sentBy]
        refine Nat.lt_min.mpr ⟨short, ?_⟩
        rw [Nat.add_one_mul]
        have rest := Nat.mod_lt count window.1
        have whole := Nat.div_add_mod count options.window
        rw [Nat.mul_comm] at whole
        omega
      rw [stops] at sent
      have same := congrArg List.length (sent : stream options 0 _ = stream options 0 _)
      obtain ⟨later, split⟩ := Nat.exists_eq_add_of_lt longer
      rw [split, Nat.add_assoc, stream_add, List.length_append, Nat.add_comm later, stream_add,
        List.length_append, stream_succ, List.length_append, length_frameBytes] at same
      simp only [HEADER_SIZE] at same
      omega
    · obtain rfl := Nat.le_antisymm within all
      have verified := client_verified options clientDelivers steadyClient
        (answered.trans (List.append_nil _).symm)
      rw [if_neg fun faulty => injects ⟨faulty.2.1, faulty⟩]
      exact ⟨verified, closed⟩

theorem bench_exchange_one_request :
    client oneRequest [.moved 3] twoPieces = ⟨stream oneRequest 0 1, .ok ⟨4, 1⟩⟩ ∧
      (serveConnection 2 [] twoPieces).closed = none := by
  have verified := client_verified oneRequest (show Delivers [.moved 3] by simp [Delivers])
    steady_twoPieces (contents_twoPieces.trans (List.append_nil _).symm)
  have served := (serveConnection_requests oneRequest 2 (show Delivers [] by simp [Delivers])
    steady_twoPieces contents_twoPieces).1
  exact bench_exchange oneRequest 2 [.moved 3] [] twoPieces twoPieces (by simp [Delivers])
    (by simp [Delivers]) steady_twoPieces steady_twoPieces
    (by rw [verified, contents_twoPieces]) (by rw [served, contents_twoPieces]; decide)

end EmbeddedRuntime.Transport.Bench
