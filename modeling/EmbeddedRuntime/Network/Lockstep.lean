import EmbeddedRuntime.Network.Session
import Mathlib.Data.List.TakeWhile

/-!
# The two sides stay in lockstep up to the first empty line

`Phase` lists where a session can be after some lines were answered.  One system
call leads from a phase to a phase, takes the session nearer to its end, and is
always possible before the end.  An empty line is a frame of length zero, which
the server takes as the end of the session.
-/

set_option autoImplicit false

namespace EmbeddedRuntime.Network.Lockstep

open EmbeddedRuntime.Lib.ByteOrder
open EmbeddedRuntime.Lib.Machine
open EmbeddedRuntime.Network.Frames
open EmbeddedRuntime.Network.Session

/-! ## The size of a response -/

/-- The room up to the limit, as the code computes it. -/
theorem room_eq (len : Nat) :
    (if maxResponse > len then maxResponse - len else 0) = maxResponse - len := by
  split_ifs
  · rfl
  · omega

theorem length_captureLoop (cap : Nat) (buf : Bytes) (chunks : List Bytes)
    (within : buf.length ≤ maxResponse) :
    (captureLoop cap buf chunks).length ≤ maxResponse + truncated.length := by
  induction chunks generalizing cap buf with
  | nil =>
      rw [captureLoop]
      omega
  | cons chunk chunks ih =>
      have part : (buf ++ chunk.take (maxResponse - buf.length)).length ≤ maxResponse := by
        rw [List.length_append, List.length_take]
        omega
      rw [captureLoop]
      simp only [room_eq]
      by_cases ended : chunk = []
      · rw [if_pos ended]
        omega
      rw [if_neg ended]
      by_cases long : buf.length + chunk.length > maxResponse
      · rw [if_pos long]
        split_ifs
        · rw [List.length_append]
          omega
        · omega
      · rw [if_neg long]
        apply ih
        rw [List.length_append]
        omega

theorem length_asciiBytes (text : String) : (asciiBytes text).length = text.length := by
  rw [asciiBytes, List.length_map, String.length_toList]

/-- The status line has at most three digits. -/
theorem length_exitStatus {code : Nat} (small : code < 256) :
    (asciiBytes ("exit_status=" ++ toString code ++ "\n")).length ≤ 16 := by
  have digits : (toString code).length ≤ 3 :=
    (Nat.length_repr_le_iff (by decide)).mpr (by omega)
  have label : "exit_status=".length = 12 := rfl
  have newline : "\n".length = 1 := rfl
  rw [length_asciiBytes, String.length_append, String.length_append]
  omega

theorem exitCode_lt (status : WaitStatus) : status.exitCode < 256 := by
  cases status with
  | exited status => exact status.toNat_lt
  | signaled signal =>
      simp only [WaitStatus.exitCode]
      omega
  | other => decide

/-- The client has room for every response. -/
theorem length_response (execution : Execution) :
    (response execution).length ≤ maxResponse + 128 := by
  have output := length_captureLoop 4096 [] execution.chunks (Nat.zero_le _)
  have header := length_exitStatus (exitCode_lt execution.status)
  have notice : truncated.length = 29 := by decide
  simp only [response, executeCapture, List.length_append] at *
  omega

/-! ## The phases of a session -/

/-- A line the interactive client submits with `send_command`: a C string of at most 4096 bytes
other than `exit`. -/
structure Submitted (line : Bytes) : Prop where
  short : line.length ≤ maxCommand
  notExit : line ≠ exitCommand
  noNul : 0 ∉ line

section Outcome
variable (outcome : List Bytes → Execution)

/-- The lines after `before`, each with the response to it. -/
def answersFrom (before : List Bytes) : List Bytes → List (Bytes × Bytes)
  | [] => []
  | line :: rest =>
      (line, response (outcome (before ++ [line]))) :: answersFrom (before ++ [line]) rest

def answersTo (lines : List Bytes) : List (Bytes × Bytes) := answersFrom outcome [] lines

def responsesTo (lines : List Bytes) : List Bytes := (answersTo outcome lines).map Prod.snd

theorem answersFrom_append (before first second : List Bytes) :
    answersFrom outcome before (first ++ second) =
      answersFrom outcome before first ++ answersFrom outcome (before ++ first) second := by
  induction first generalizing before with
  | nil => simp [answersFrom]
  | cons line rest ih => simp [answersFrom, ih]

theorem answersTo_append (first second : List Bytes) :
    answersTo outcome (first ++ second) =
      answersTo outcome first ++ answersFrom outcome first second :=
  answersFrom_append outcome [] first second

theorem answersTo_concat (done : List Bytes) (line : Bytes) :
    answersTo outcome (done ++ [line]) =
      answersTo outcome done ++ [(line, response (outcome (done ++ [line])))] :=
  answersTo_append outcome done [line]

theorem responsesTo_concat (done : List Bytes) (line : Bytes) :
    responsesTo outcome (done ++ [line]) =
      responsesTo outcome done ++ [response (outcome (done ++ [line]))] := by
  rw [responsesTo, answersTo_concat, List.map_append]
  rfl

/-- Work left once a command is with the server. -/
def answerWork : Nat := 2 * (maxResponse + 128 + 4) + 1

/-- Work of a whole line. -/
def lineWork : Nat := 2 * (maxCommand + 4) + answerWork

/-- Work of the last frame. -/
def exitWork : Nat := 16

/-- The bytes still to be sent. -/
def unsent (pending : List Bytes) : Nat := pending.flatten.length

/-- Where a session can be when the lines `done` were answered and `rest` were not; the number
bounds the system calls left. -/
inductive Phase (done : List Bytes) : List Bytes → Nat → State → Prop where
  | asking {line : Bytes} {more pending : List Bytes} {receiving : Receiving} {channel : Bytes}
      (transit : InTransit maxCommand line receiving channel pending) (some : pending ≠ []) :
      Phase done (line :: more)
        (2 * unsent pending + channel.length + answerWork + lineWork * more.length + exitWork)
        ⟨⟨.sending line pending, more, answersTo outcome done⟩,
          ⟨.receiving receiving, done, responsesTo outcome done⟩, channel, []⟩
  | asked {line : Bytes} {more : List Bytes} {receiving : Receiving} {channel : Bytes}
      (transit : InTransit maxCommand line receiving channel []) :
      Phase done (line :: more)
        (channel.length + answerWork + lineWork * more.length + exitWork)
        ⟨⟨.receiving line (.header []), more, answersTo outcome done⟩,
          ⟨.receiving receiving, done, responsesTo outcome done⟩, channel, []⟩
  | executing {line : Bytes} {more : List Bytes} (some : line ≠ []) :
      Phase done (line :: more) (answerWork + lineWork * more.length + exitWork)
        ⟨⟨.receiving line (.header []), more, answersTo outcome done⟩,
          ⟨.executing line, done, responsesTo outcome done⟩, [], []⟩
  | answering {line : Bytes} {more pending : List Bytes} {receiving : Receiving}
      {channel : Bytes} (some : line ≠ [])
      (transit : InTransit (maxResponse + 128) (response (outcome (done ++ [line]))) receiving
        channel pending) (left : pending ≠ []) :
      Phase done (line :: more)
        (2 * unsent pending + channel.length + lineWork * more.length + exitWork)
        ⟨⟨.receiving line receiving, more, answersTo outcome done⟩,
          ⟨.sending (response (outcome (done ++ [line]))) pending, done ++ [line],
            responsesTo outcome done⟩, [], channel⟩
  | answered {line : Bytes} {more : List Bytes} {receiving : Receiving} {channel : Bytes}
      (some : line ≠ [])
      (transit : InTransit (maxResponse + 128) (response (outcome (done ++ [line]))) receiving
        channel []) :
      Phase done (line :: more) (channel.length + lineWork * more.length + exitWork)
        ⟨⟨.receiving line receiving, more, answersTo outcome done⟩,
          ⟨.receiving (.header []), done ++ [line], responsesTo outcome (done ++ [line])⟩, [],
          channel⟩
  | leaving {pending : List Bytes} {receiving : Receiving} {channel : Bytes}
      (transit : InTransit maxCommand exitCommand receiving channel pending)
      (left : pending ≠ []) :
      Phase done [] (2 * unsent pending + channel.length)
        ⟨⟨.leaving 0 pending, [], answersTo outcome done⟩,
          ⟨.receiving receiving, done, responsesTo outcome done⟩, channel, []⟩
  | left {receiving : Receiving} {channel : Bytes}
      (transit : InTransit maxCommand exitCommand receiving channel []) :
      Phase done [] channel.length
        ⟨⟨.closed 0, [], answersTo outcome done⟩,
          ⟨.receiving receiving, done, responsesTo outcome done⟩, channel, []⟩
  | finished :
      Phase done [] 0
        ⟨⟨.closed 0, [], answersTo outcome done⟩,
          ⟨.closed, done, responsesTo outcome done⟩, [], []⟩
  | refused {more : List Bytes} :
      Phase done ([] :: more) (1 + exitWork)
        ⟨⟨.receiving [] (.header []), more, answersTo outcome done⟩,
          ⟨.closed, done, responsesTo outcome done⟩, [], []⟩
  | refusedLeaving {more pending : List Bytes} {channel : Bytes}
      (buffers : ∀ buffer ∈ pending, buffer ≠ []) (left : pending ≠ []) :
      Phase done ([] :: more) (2 * unsent pending)
        ⟨⟨.leaving 1 pending, more, answersTo outcome done⟩,
          ⟨.closed, done, responsesTo outcome done⟩, channel, []⟩
  | refusedFinished {more : List Bytes} {channel : Bytes} :
      Phase done ([] :: more) 0
        ⟨⟨.closed 1, more, answersTo outcome done⟩,
          ⟨.closed, done, responsesTo outcome done⟩, channel, []⟩

/-- The session is in a phase of its lines. -/
def Inv (lines : List Bytes) (work : Nat) (state : State) : Prop :=
  ∃ done rest, lines = done ++ rest ∧ (∀ line ∈ done, line ≠ []) ∧
    Phase outcome done rest work state

/-! ## One step -/

theorem unsent_sendBuffers (data : Bytes) : unsent (sendBuffers data) = 4 + data.length := by
  unfold unsent sendBuffers
  split_ifs with empty
  · simp [empty]
  · simp

theorem sendBuffers_ne_nil (data : Bytes) : sendBuffers data ≠ [] := by
  simp [sendBuffers]

theorem unsent_send {n : Nat} {pending left : List Bytes} {bytes : Bytes}
    (sent : send n pending = some (bytes, left)) :
    0 < bytes.length ∧ unsent pending = bytes.length + unsent left := by
  obtain ⟨some, same, -⟩ := send_some sent
  refine ⟨List.length_pos_iff.mpr some, ?_⟩
  rw [unsent, unsent, ← same, List.length_append]

/-- The top of the client's loop with both channels empty. -/
theorem phase_nextLine (done rest : List Bytes) (ok : ∀ line ∈ rest, Submitted line)
    (point : ClientPoint) :
    ∃ work, work ≤ lineWork * rest.length + exitWork ∧
      Phase outcome done rest work
        ⟨Client.nextLine ⟨point, rest, answersTo outcome done⟩,
          ⟨.receiving (.header []), done, responsesTo outcome done⟩, [], []⟩ := by
  cases rest with
  | nil =>
      refine ⟨2 * unsent (sendBuffers exitCommand) + ([] : Bytes).length, ?_,
        .leaving (inTransit_start (by decide) (by decide)) (sendBuffers_ne_nil _)⟩
      rw [unsent_sendBuffers]
      decide
  | cons line more =>
      have submitted := ok line List.mem_cons_self
      have transit := inTransit_start submitted.short (by decide)
      have next : Client.nextLine ⟨point, line :: more, answersTo outcome done⟩ =
          ⟨.sending line (sendBuffers line), more, answersTo outcome done⟩ := by
        rw [Client.nextLine]
        simp only [if_neg submitted.notExit, if_neg (Nat.not_lt.mpr submitted.short)]
      rw [next]
      refine ⟨_, ?_, .asking transit (sendBuffers_ne_nil line)⟩
      have short := submitted.short
      rw [unsent_sendBuffers, List.length_nil, List.length_cons, Nat.mul_succ]
      simp only [lineWork]
      omega

variable {outcome} {done rest : List Bytes} {work : Nat} {state next : State}

/-- A client that waits on an empty channel stays where it is. -/
theorem client_waits {line toServer : Bytes} {receiving : Receiving} {unread : List Bytes}
    {answers : List (Bytes × Bytes)} {server : Server} (busy : server.point ≠ .closed) (n : Nat) :
    clientStep ⟨⟨.receiving line receiving, unread, answers⟩, server, toServer, []⟩ n = none := by
  simp only [clientStep, busy, and_false, if_false, List.length_nil]
  split_ifs with zero enough
  · rfl
  · exact absurd (Nat.le_zero.mp enough.2) zero
  · rfl

theorem server_waits {toClient : Bytes} {receiving : Receiving} {commands sent : List Bytes}
    {client : Client} (open_ : client.point.isClosed = false) (n : Nat) :
    serverStep outcome ⟨client, ⟨.receiving receiving, commands, sent⟩, [], toClient⟩ n = none := by
  simp only [serverStep, open_, Bool.false_eq_true, and_false, if_false, List.length_nil]
  split_ifs with zero enough
  · rfl
  · exact absurd (Nat.le_zero.mp enough.2) zero
  · rfl

/-- A step of the client stays with the same lines answered, or reads the answer to one more. -/
theorem phase_client (ok : ∀ line ∈ rest, Submitted line)
    (phase : Phase outcome done rest work state) {n : Nat}
    (moved : clientStep state n = some next) :
    (∃ less, less < work ∧ Phase outcome done rest less next) ∨
    (∃ line more less, rest = line :: more ∧ line ≠ [] ∧ less < work ∧
      Phase outcome (done ++ [line]) more less next) := by
  cases phase with
  | asking transit some =>
      simp only [clientStep, Option.map_eq_some_iff] at moved
      obtain ⟨⟨bytes, left⟩, sent, rfl⟩ := moved
      obtain ⟨positive, count⟩ := unsent_send sent
      have onward := transit.send sent
      by_cases last : left = []
      · subst last
        refine Or.inl ⟨_, ?_, .asked onward⟩
        simp only [List.length_append]
        omega
      · simp only [if_neg last]
        refine Or.inl ⟨_, ?_, .asking onward last⟩
        rw [List.length_append]
        omega
  | asked transit =>
      rw [client_waits (by simp)] at moved
      cases moved
  | executing some =>
      rw [client_waits (by simp)] at moved
      cases moved
  | @answering line more pending receiving channel some transit left =>
      simp only [clientStep, reduceCtorEq, and_false, if_false] at moved
      split_ifs at moved with zero enough
      rcases transit.recv enough.1 enough.2 with ⟨later, stored, onward⟩ | ⟨stored, none, all⟩
      · rw [stored] at moved
        obtain rfl := Option.some.inj moved
        refine Or.inl ⟨_, ?_, .answering some onward left⟩
        rw [List.length_drop]
        omega
      · exact absurd all left
  | @answered line more receiving channel some transit =>
      simp only [clientStep, reduceCtorEq, and_false, if_false] at moved
      split_ifs at moved with zero enough
      rcases transit.recv enough.1 enough.2 with ⟨later, stored, onward⟩ | ⟨stored, none, -⟩
      · rw [stored] at moved
        obtain rfl := Option.some.inj moved
        refine Or.inl ⟨_, ?_, .answered some onward⟩
        rw [List.length_drop]
        omega
      · rw [stored] at moved
        obtain rfl := Option.some.inj moved
        obtain ⟨less, bound, phase⟩ := phase_nextLine outcome (done ++ [line]) more
          (fun other here => ok other (List.mem_cons_of_mem _ here)) (.receiving line receiving)
        refine Or.inr ⟨line, more, less, rfl, some, by omega, ?_⟩
        rw [none, ← answersTo_concat]
        exact phase
  | leaving transit left =>
      simp only [clientStep, Option.map_eq_some_iff] at moved
      obtain ⟨⟨bytes, after⟩, sent, rfl⟩ := moved
      obtain ⟨positive, count⟩ := unsent_send sent
      have onward := transit.send sent
      by_cases last : after = []
      · subst last
        refine Or.inl ⟨_, ?_, .left onward⟩
        simp only [List.length_append]
        omega
      · simp only [if_neg last]
        refine Or.inl ⟨_, ?_, .leaving onward last⟩
        rw [List.length_append]
        omega
  | left transit => cases moved
  | finished => cases moved
  | refused =>
      simp only [clientStep, List.length_nil] at moved
      split_ifs at moved with zero ended bad
      · obtain rfl := Option.some.inj moved
        refine Or.inl ⟨_, ?_, .refusedLeaving ?_ (sendBuffers_ne_nil _)⟩
        · rw [unsent_sendBuffers]
          decide
        · have transit :
              InTransit maxCommand exitCommand (.header []) [] (sendBuffers exitCommand) :=
            inTransit_start (by decide) (by decide)
          exact transit.buffers
      · exact absurd (Nat.le_zero.mp bad.2) zero
  | @refusedLeaving more pending channel buffers left =>
      simp only [clientStep, Option.map_eq_some_iff] at moved
      obtain ⟨⟨bytes, after⟩, sent, rfl⟩ := moved
      obtain ⟨positive, count⟩ := unsent_send sent
      obtain ⟨-, -, kept⟩ := send_some sent
      by_cases last : after = []
      · subst last
        refine Or.inl ⟨_, ?_, .refusedFinished⟩
        omega
      · simp only [if_neg last]
        refine Or.inl ⟨_, ?_, .refusedLeaving (kept buffers) last⟩
        omega
  | refusedFinished => cases moved

theorem cString_of_noNul {line : Bytes} (noNul : 0 ∉ line) : cString line = line := by
  rw [cString, List.takeWhile_eq_self_iff]
  intro byte here
  simp only [ne_eq, decide_not, Bool.not_eq_eq_eq_not, Bool.not_true, decide_eq_false_iff_not]
  rintro rfl
  exact noNul here

/-- A step of the server. -/
theorem phase_server (ok : ∀ line ∈ rest, Submitted line)
    (phase : Phase outcome done rest work state) {n : Nat}
    (moved : serverStep outcome state n = some next) :
    ∃ less, less < work ∧ Phase outcome done rest less next := by
  cases phase with
  | asking transit some =>
      simp only [serverStep, ClientPoint.isClosed, Bool.false_eq_true, and_false, if_false] at moved
      split_ifs at moved with zero enough
      rcases transit.recv enough.1 enough.2 with ⟨later, stored, onward⟩ | ⟨stored, none, all⟩
      · rw [stored] at moved
        obtain rfl := Option.some.inj moved
        refine ⟨_, ?_, .asking onward some⟩
        rw [List.length_drop]
        omega
      · exact absurd all some
  | @asked line more receiving channel transit =>
      have submitted := ok line List.mem_cons_self
      simp only [serverStep, ClientPoint.isClosed, Bool.false_eq_true, and_false, if_false] at moved
      split_ifs at moved with zero enough
      rcases transit.recv enough.1 enough.2 with ⟨later, stored, onward⟩ | ⟨stored, none, -⟩
      · rw [stored] at moved
        obtain rfl := Option.some.inj moved
        refine ⟨_, ?_, .asked onward⟩
        rw [List.length_drop]
        omega
      · rw [stored] at moved
        obtain rfl := Option.some.inj moved
        rw [none, Server.receive, cString_of_noNul submitted.noNul]
        by_cases empty : line = []
        · subst empty
          refine ⟨_, ?_, .refused⟩
          simp only [answerWork]
          omega
        · simp only [empty, submitted.notExit, false_or, if_false]
          refine ⟨_, ?_, .executing empty⟩
          omega
  | @executing line more some =>
      simp only [serverStep] at moved
      obtain rfl := Option.some.inj moved
      have size := length_response (outcome (done ++ [line]))
      refine ⟨_, ?_, .answering some (inTransit_start size (by decide)) (sendBuffers_ne_nil _)⟩
      rw [unsent_sendBuffers, List.length_nil]
      simp only [answerWork]
      omega
  | @answering line more pending receiving channel some transit left =>
      simp only [serverStep, Option.map_eq_some_iff] at moved
      obtain ⟨⟨bytes, after⟩, sent, rfl⟩ := moved
      obtain ⟨positive, count⟩ := unsent_send sent
      have onward := transit.send sent
      by_cases last : after = []
      · subst last
        simp only [if_true, ← responsesTo_concat]
        refine ⟨_, ?_, .answered some onward⟩
        rw [List.length_append]
        omega
      · simp only [if_neg last]
        refine ⟨_, ?_, .answering some onward last⟩
        rw [List.length_append]
        omega
  | answered some transit =>
      rw [server_waits rfl] at moved
      cases moved
  | leaving transit left =>
      simp only [serverStep, ClientPoint.isClosed, Bool.false_eq_true, and_false, if_false] at moved
      split_ifs at moved with zero enough
      rcases transit.recv enough.1 enough.2 with ⟨later, stored, onward⟩ | ⟨stored, none, all⟩
      · rw [stored] at moved
        obtain rfl := Option.some.inj moved
        refine ⟨_, ?_, .leaving onward left⟩
        rw [List.length_drop]
        omega
      · exact absurd all left
  | left transit =>
      have more := transit.canRecv.2
      simp only [serverStep, ClientPoint.isClosed, and_true] at moved
      split_ifs at moved with zero none enough
      · rw [none] at more
        cases more
      · rcases transit.recv enough.1 enough.2 with ⟨later, stored, onward⟩ | ⟨stored, none, -⟩
        · rw [stored] at moved
          obtain rfl := Option.some.inj moved
          refine ⟨_, ?_, .left onward⟩
          rw [List.length_drop]
          omega
        · rw [stored] at moved
          obtain rfl := Option.some.inj moved
          have exits : cString exitCommand = exitCommand := by decide
          rw [none, Server.receive, exits]
          simp only [or_true, if_true]
          exact ⟨0, by omega, .finished⟩
  | finished => cases moved
  | refused => cases moved
  | refusedLeaving buffers left => cases moved
  | refusedFinished => cases moved

/-! ## Runs -/

/-- An interrupted call does not count. -/
def Action.counts : Action → Bool
  | .client _ => true
  | .server _ => true
  | .interrupted => false

theorem inv_bounds {lines : List Bytes} (ok : ∀ line ∈ lines, Submitted line) :
    Bounds (step outcome) Action.counts (Inv outcome lines) where
  kept := by
    rintro work state action next ⟨done, rest, split, some, phase⟩ stepEq
    have okRest : ∀ line ∈ rest, Submitted line := by
      intro line here
      apply ok
      rw [split]
      exact List.mem_append_right _ here
    cases action with
    | client n =>
        rcases phase_client okRest phase stepEq with ⟨less, bound, kept⟩ |
          ⟨line, more, less, rfl, nonempty, bound, kept⟩
        · exact ⟨less, bound, done, rest, split, some, kept⟩
        · refine ⟨less, bound, done ++ [line], more, by simp [split], ?_, kept⟩
          intro other here
          rcases List.mem_append.mp here with early | last
          · exact some other early
          · rw [List.mem_singleton.mp last]
            exact nonempty
    | server n =>
        obtain ⟨less, bound, kept⟩ := phase_server okRest phase stepEq
        exact ⟨less, bound, done, rest, split, some, kept⟩
    | interrupted =>
        obtain rfl := Option.some.inj stepEq
        exact ⟨work, Nat.le_refl _, done, rest, split, some, phase⟩

theorem inv_start {lines : List Bytes} (ok : ∀ line ∈ lines, Submitted line) :
    ∃ work, work ≤ lineWork * lines.length + exitWork ∧ Inv outcome lines work (start lines) := by
  obtain ⟨work, bound, phase⟩ := phase_nextLine outcome [] lines ok (.closed 0)
  exact ⟨work, bound, [], lines, rfl, fun line here => absurd here List.not_mem_nil, phase⟩

/-- No system call but an interrupted one is possible. -/
def Stuck (outcome : List Bytes → Execution) (state : State) : Prop :=
  ∀ action, Action.counts action = true → step outcome state action = none

/-- A session that cannot go on has answered all lines, or all before an empty one. -/
theorem phase_stuck (phase : Phase outcome done rest work state) (stuck : Stuck outcome state) :
    state.client.answers = answersTo outcome done ∧ state.server.commands = done ∧
      state.server.sent = responsesTo outcome done ∧
      (rest = [] ∧ state.client.point = .closed 0 ∧ state.server.point = .closed ∨
        ∃ more, rest = [] :: more) := by
  have client (n : Nat) := stuck (.client n) rfl
  have server (n : Nat) := stuck (.server n) rfl
  simp only [step] at client server
  cases phase with
  | asking transit some =>
      obtain ⟨sent, possible⟩ := transit.canSend some
      have moved := client 1
      simp only [clientStep, possible] at moved
      cases moved
  | asked transit =>
      obtain ⟨want, here⟩ := transit.canRecv
      have moved := server 1
      simp only [serverStep, Nat.one_ne_zero, if_false, if_pos (And.intro want here)] at moved
      split at moved <;> cases moved
  | executing some => cases server 0
  | answering some transit left =>
      obtain ⟨sent, possible⟩ := transit.canSend left
      have moved := server 1
      simp only [serverStep, possible] at moved
      cases moved
  | answered some transit =>
      obtain ⟨want, here⟩ := transit.canRecv
      have moved := client 1
      simp only [clientStep, Nat.one_ne_zero, if_false, if_pos (And.intro want here)] at moved
      split at moved <;> cases moved
  | leaving transit left =>
      obtain ⟨sent, possible⟩ := transit.canSend left
      have moved := client 1
      simp only [clientStep, possible] at moved
      cases moved
  | left transit =>
      obtain ⟨want, here⟩ := transit.canRecv
      have moved := server 1
      simp only [serverStep, Nat.one_ne_zero, if_false, if_pos (And.intro want here)] at moved
      split at moved <;> cases moved
  | finished => exact ⟨rfl, rfl, rfl, Or.inl ⟨rfl, rfl, rfl⟩⟩
  | refused => cases client 0
  | refusedLeaving buffers left =>
      obtain ⟨sent, possible⟩ := send_one buffers left
      have moved := client 1
      simp only [clientStep, possible] at moved
      cases moved
  | refusedFinished => exact ⟨rfl, rfl, rfl, Or.inr ⟨_, rfl⟩⟩

/-- What a state of a session shows of the lines. -/
theorem phase_logs (phase : Phase outcome done rest work state) :
    (∃ later, done ++ rest = state.server.commands ++ later) ∧
      (state.client.answers = answersTo outcome done) ∧
      (state.server.sent = responsesTo outcome state.server.commands ∨
        ∃ line, state.server.commands = done ++ [line] ∧
          state.server.sent = responsesTo outcome done) := by
  cases phase with
  | asking | asked | executing | refused | refusedLeaving | refusedFinished =>
      exact ⟨⟨_, rfl⟩, rfl, Or.inl rfl⟩
  | leaving | left | finished => exact ⟨⟨_, rfl⟩, rfl, Or.inl rfl⟩
  | @answering line more => exact ⟨⟨more, by simp⟩, rfl, Or.inr ⟨line, rfl, rfl⟩⟩
  | @answered line more => exact ⟨⟨more, by simp⟩, rfl, Or.inl rfl⟩

/-! ## Lockstep -/

/-- In every state of every run the server has read the lines in order and the client has read
the responses to them in order; a run that cannot go on has all of them answered, and every run
comes to that point. -/
def InLockstep (outcome : List Bytes → Execution) (lines : List Bytes) : Prop :=
  (∀ schedule state, runPartial (step outcome) (start lines) schedule = some state →
    state.server.commands <+: lines ∧
    state.client.answers <+: answersTo outcome lines ∧
    state.server.sent <+: responsesTo outcome lines ∧
    (Stuck outcome state →
      state.server.commands = lines ∧ state.client.answers = answersTo outcome lines ∧
      state.server.sent = responsesTo outcome lines)) ∧
  ∃ bound, ∀ schedule state, runPartial (step outcome) (start lines) schedule = some state →
    schedule.countP Action.counts ≤ bound

theorem answersTo_front {first lines : List Bytes} (front : first <+: lines) :
    answersTo outcome first <+: answersTo outcome lines := by
  obtain ⟨later, rfl⟩ := front
  rw [answersTo_append]
  exact List.prefix_append ..

theorem responsesTo_prefix {first lines : List Bytes} (front : first <+: lines) :
    responsesTo outcome first <+: responsesTo outcome lines :=
  (answersTo_front front).map _

theorem run_inv {lines : List Bytes} (ok : ∀ line ∈ lines, Submitted line)
    {schedule : List Action} {state : State}
    (ran : runPartial (step outcome) (start lines) schedule = some state) :
    (∃ work, Inv outcome lines work state) ∧
      schedule.countP Action.counts ≤ lineWork * lines.length + exitWork := by
  obtain ⟨work, bound, begun⟩ := @inv_start outcome lines ok
  obtain ⟨less, count, inv⟩ := (inv_bounds ok).run schedule begun ran
  exact ⟨⟨less, inv⟩, by omega⟩

/-- Every list of submitted lines is answered line by line exactly when none of them is empty. -/
theorem session_lockstep_iff (outcome : List Bytes → Execution) (lines : List Bytes)
    (ok : ∀ line ∈ lines, Submitted line) :
    InLockstep outcome lines ↔ ∀ line ∈ lines, line ≠ [] := by
  constructor
  · intro lockstep
    obtain ⟨work, bound, begun⟩ := @inv_start outcome lines ok
    obtain ⟨schedule, final, ran, stuck⟩ := (inv_bounds ok).exists_stuck begun
    obtain ⟨⟨less, done, rest, split, nonempty, phase⟩, -⟩ := run_inv ok ran
    obtain ⟨-, commands, -, last⟩ := phase_stuck phase stuck
    have all := ((lockstep.1 schedule final ran).2.2.2 stuck).1
    rw [← all, commands]
    exact nonempty
  · intro nonempty
    refine ⟨?_, lineWork * lines.length + exitWork, fun schedule state ran => (run_inv ok ran).2⟩
    intro schedule state ran
    obtain ⟨⟨work, done, rest, split, -, phase⟩, -⟩ := run_inv ok ran
    obtain ⟨⟨later, front⟩, answers, sent⟩ := phase_logs phase
    have doneFront : done <+: lines := ⟨rest, split.symm⟩
    have commandsFront : state.server.commands <+: lines := ⟨later, by rw [split, front]⟩
    refine ⟨commandsFront, ?_, ?_, ?_⟩
    · rw [answers]
      exact answersTo_front doneFront
    · rcases sent with same | ⟨line, _, same⟩
      · rw [same]
        exact responsesTo_prefix commandsFront
      · rw [same]
        exact responsesTo_prefix doneFront
    · intro stuck
      obtain ⟨answersOk, commandsOk, sentOk, last⟩ := phase_stuck phase stuck
      rcases last with ⟨none, -, -⟩ | ⟨more, refused⟩
      · rw [none, List.append_nil] at split
        rw [split]
        exact ⟨commandsOk, answersOk, sentOk⟩
      · exfalso
        apply nonempty []
        · rw [split, refused]
          exact List.mem_append_right _ List.mem_cons_self
        · rfl

end Outcome

/-- Commands that print nothing and succeed. -/
def quiet (_ : List Bytes) : Execution := ⟨[], .exited 0⟩

theorem session_lockstep_ls : InLockstep quiet [[0x6c, 0x73]] := by
  refine (session_lockstep_iff quiet [[0x6c, 0x73]] ?_).mpr (by simp)
  intro line here
  rw [List.mem_singleton.mp here]
  exact ⟨by decide, by decide, by decide⟩

/-- The session of one empty line: the server closes the connection, the client leaves with
status 1, and the line has no answer. -/
theorem empty_line_unanswered :
    (∃ final, runPartial (step quiet) (start [[]])
        [.client 4, .server 4, .client 0, .client 4, .client 4] = some final ∧
      Stuck quiet final ∧ final.client.point = .closed 1 ∧ final.client.answers = [] ∧
      final.server.commands = []) ∧
    ¬ InLockstep quiet [[]] := by
  have ran : runPartial (step quiet) (start [[]])
      [.client 4, .server 4, .client 0, .client 4, .client 4] =
      some ⟨⟨.closed 1, [], []⟩, ⟨.closed, [], []⟩, be32 4 ++ exitCommand, []⟩ := by
    decide
  have stuck : Stuck quiet
      ⟨⟨.closed 1, [], []⟩, ⟨.closed, [], []⟩, be32 4 ++ exitCommand, []⟩ := by
    intro action counted
    cases action with
    | client n => rfl
    | server n => rfl
    | interrupted => cases counted
  refine ⟨⟨_, ran, stuck, rfl, rfl, rfl⟩, ?_⟩
  intro lockstep
  have commands := ((lockstep.1 _ _ ran).2.2.2 stuck).1
  cases commands

end EmbeddedRuntime.Network.Lockstep
