import EmbeddedRuntime.Lib.Machine
import Mathlib.Data.List.Perm.Basic
import Mathlib.Data.List.Range

/-!
# The accept loop of `network/server.c`

The main thread accepts connections and creates a thread for each; a thread
serves its client and then takes itself off `active_clients`; after the loop the
main thread waits for the count to be zero.  One action is one critical section
or one system call of one thread.  Connections are numbered as they are
accepted; what a thread and its client exchange is left out here, and so is the
wrap-around of the count at 2^32 threads.
-/

set_option autoImplicit false

namespace EmbeddedRuntime.Network.AcceptLoop

open EmbeddedRuntime.Lib.Machine

inductive ThreadPoint where
  /-- Before `close(fd)`. -/
  | serving
  /-- Before the critical section at the end of `client_thread`. -/
  | counting
  | finished
  deriving DecidableEq, Repr

structure ClientThread where
  connection : Nat
  point : ThreadPoint
  deriving DecidableEq, Repr

inductive MainPoint where
  /-- Before the test of `stop_server`. -/
  | top
  | accepting
  | allocating (connection : Nat)
  | counting (connection : Nat)
  | creating (connection : Nat)
  /-- After a `pthread_create` that failed, with the connection closed. -/
  | uncounting
  | leaving
  /-- Before the test of `active_clients`, with the lock. -/
  | checking
  /-- In `pthread_cond_wait`. -/
  | asleep
  | returned
  deriving DecidableEq, Repr

/-- `closed` records the connections in the order they are closed. -/
structure State where
  main : MainPoint
  threads : List ClientThread
  active : Nat
  stop : Bool
  accepted : Nat
  connections : Nat
  closed : List Nat
  listening : Bool
  deriving DecidableEq, Repr

def start : State := ⟨.top, [], 0, false, 0, 0, [], true⟩

/-- What `accept` does. -/
inductive Accept where
  | connection
  | interrupted
  | failed
  deriving DecidableEq, Repr

/-- A step of the main thread; `succeeds` is the result of `malloc` or of
`pthread_create`. -/
def mainStep (once : Bool) (state : State) (accept : Accept) (succeeds : Bool) : State :=
  match state.main with
  | .top => { state with main := if state.stop then .leaving else .accepting }
  | .accepting =>
      match accept with
      | .connection =>
          { state with
            main := .allocating state.connections
            connections := state.connections + 1 }
      | .interrupted => { state with main := .top }
      | .failed => { state with main := .leaving }
  | .allocating connection =>
      if succeeds then { state with main := .counting connection }
      else { state with main := .top, closed := state.closed ++ [connection] }
  | .counting connection =>
      { state with main := .creating connection, active := state.active + 1 }
  | .creating connection =>
      if succeeds then
        { state with
          main := if once ∧ state.accepted + 1 ≥ 1 then .leaving else .top
          threads := state.threads ++ [⟨connection, .serving⟩]
          accepted := state.accepted + 1 }
      else { state with main := .uncounting, closed := state.closed ++ [connection] }
  | .uncounting => { state with main := .top, active := state.active - 1 }
  | .leaving => { state with main := .checking, listening := false }
  | .checking => { state with main := if state.active ≠ 0 then .asleep else .returned }
  | .asleep | .returned => state

/-- `pthread_cond_broadcast`, and a wake-up without one. -/
def State.wake (state : State) : State :=
  { state with main := if state.main = .asleep then .checking else state.main }

/-- A step of a client thread. -/
def threadStep (state : State) (index : Nat) : State :=
  match state.threads[index]? with
  | none => state
  | some thread =>
      match thread.point with
      | .serving =>
          { state with
            threads := state.threads.set index { thread with point := .counting }
            closed := state.closed ++ [thread.connection] }
      | .counting =>
          { state with
            threads := state.threads.set index { thread with point := .finished }
            active := if state.active ≠ 0 then state.active - 1 else state.active }.wake
      | .finished => state

inductive Action where
  | main (accept : Accept) (succeeds : Bool)
  | thread (index : Nat)
  | signal
  | spuriousWake
  deriving DecidableEq, Repr

def step (once : Bool) (state : State) : Action → State
  | .main accept succeeds => mainStep once state accept succeeds
  | .thread index => threadStep state index
  | .signal => { state with stop := true }
  | .spuriousWake => state.wake

/-! ## The invariant -/

/-- The threads that still have to take themselves off the count. -/
def unfinished (threads : List ClientThread) : Nat :=
  threads.countP fun thread => thread.point ≠ .finished

/-- A client counted by the main thread that has no thread. -/
def MainPoint.extra : MainPoint → Nat
  | .creating _ | .uncounting => 1
  | _ => 0

/-- The connection the main thread has to hand on or close. -/
def MainPoint.held : MainPoint → List Nat
  | .allocating connection | .counting connection | .creating connection => [connection]
  | _ => []

/-- The connections of the threads that have not closed theirs. -/
def served (threads : List ClientThread) : List Nat :=
  (threads.filter fun thread => thread.point = .serving).map (·.connection)

/-- The main thread accepts no more. -/
def MainPoint.left : MainPoint → Bool
  | .leaving | .checking | .asleep | .returned => true
  | _ => false

structure Sound (once : Bool) (state : State) : Prop where
  counted : state.active = unfinished state.threads + state.main.extra
  /-- Every connection is in one place: with the main thread, with one client
  thread, or closed. -/
  placed : (state.main.held ++ served state.threads ++ state.closed).Perm
    (List.range state.connections)
  /-- A sleeping main thread will be woken. -/
  asleep : state.main = .asleep → state.active ≠ 0
  returned : state.main = .returned → state.active = 0
  single : once = true → state.threads = [] ∨ state.threads.length = 1 ∧ state.main.left = true
  listening : state.listening = false ↔
    state.main = .checking ∨ state.main = .asleep ∨ state.main = .returned

theorem sound_start (once : Bool) : Sound once start :=
  ⟨rfl, List.Perm.refl _, by rintro ⟨⟩, by rintro ⟨⟩, fun _ => Or.inl rfl, by simp [start]⟩

theorem served_concat (threads : List ClientThread) (connection : Nat) :
    served (threads ++ [⟨connection, .serving⟩]) = served threads ++ [connection] := by
  simp [served, List.filter_append]

theorem served_middle (before after : List ClientThread) (thread : ClientThread) :
    served (before ++ thread :: after) =
      served before ++
        if thread.point = .serving then thread.connection :: served after else served after := by
  unfold served
  rw [List.filter_append, List.map_append, List.filter_cons]
  split_ifs with serving serving <;> simp_all

theorem unfinished_concat (threads : List ClientThread) (connection : Nat) :
    unfinished (threads ++ [⟨connection, .serving⟩]) = unfinished threads + 1 := by
  simp [unfinished]

/-- What is moved from the front to the end is still in one place. -/
theorem perm_closed (connection : Nat) (served closed : List Nat) :
    ([] ++ served ++ (closed ++ [connection])).Perm ([connection] ++ served ++ closed) := by
  rw [List.nil_append, ← List.append_assoc, List.append_assoc [connection]]
  exact List.perm_append_comm

theorem perm_handed (connection : Nat) (served closed : List Nat) :
    ([] ++ (served ++ [connection]) ++ closed).Perm ([connection] ++ served ++ closed) := by
  rw [List.nil_append]
  exact List.Perm.append_right closed List.perm_append_comm

/-- The same, from the middle. -/
theorem perm_middle (held before after closed : List Nat) (connection : Nat) :
    (held ++ (before ++ after) ++ (closed ++ [connection])).Perm
      (held ++ (before ++ connection :: after) ++ closed) := by
  refine List.perm_iff_count.mpr fun place => ?_
  simp only [List.count_append, List.count_cons, List.count_nil]
  omega

theorem sound_main {once : Bool} {state : State} (sound : Sound once state) (accept : Accept)
    (succeeds : Bool) : Sound once (mainStep once state accept succeeds) := by
  obtain ⟨counted, placed, asleep, returned, single, listening⟩ := sound
  unfold mainStep
  cases here : state.main with
  | top =>
      rw [here] at counted placed single listening
      cases state.stop with
      | true => exact ⟨counted, placed, by rintro ⟨⟩, by rintro ⟨⟩, fun isOnce =>
          (single isOnce).imp id fun later => ⟨later.1, rfl⟩, by simpa using listening⟩
      | false => exact ⟨counted, placed, by rintro ⟨⟩, by rintro ⟨⟩, single,
          by simpa using listening⟩
  | accepting =>
      rw [here] at counted placed single listening
      cases accept with
      | connection =>
          refine ⟨counted, ?_, by rintro ⟨⟩, by rintro ⟨⟩, single, by simpa using listening⟩
          rw [List.range_succ]
          exact (List.Perm.cons _ placed).trans (List.perm_append_singleton _ _).symm
      | interrupted => exact ⟨counted, placed, by rintro ⟨⟩, by rintro ⟨⟩, single,
          by simpa using listening⟩
      | failed => exact ⟨counted, placed, by rintro ⟨⟩, by rintro ⟨⟩, fun isOnce =>
          (single isOnce).imp id fun later => ⟨later.1, rfl⟩, by simpa using listening⟩
  | allocating connection =>
      rw [here] at counted placed single listening
      dsimp only
      split_ifs
      · exact ⟨counted, placed, by rintro ⟨⟩, by rintro ⟨⟩, single, by simpa using listening⟩
      · exact ⟨counted, (perm_closed ..).trans placed, by rintro ⟨⟩, by rintro ⟨⟩, single,
          by simpa using listening⟩
  | counting connection =>
      rw [here] at counted placed single listening
      exact ⟨congrArg (· + 1) counted, placed, by rintro ⟨⟩, by rintro ⟨⟩, single,
        by simpa using listening⟩
  | creating connection =>
      rw [here] at counted placed single listening
      dsimp only
      split_ifs with created last
      · refine ⟨?_, ?_, by rintro ⟨⟩, by rintro ⟨⟩, fun isOnce => Or.inr ⟨?_, rfl⟩,
          by simpa using listening⟩
        · rw [unfinished_concat]
          exact counted
        · rw [served_concat]
          exact (perm_handed ..).trans placed
        · rcases single isOnce with none | ⟨-, ⟨⟩⟩
          rw [none]
          rfl
      · refine ⟨?_, ?_, by rintro ⟨⟩, by rintro ⟨⟩, fun isOnce => ?_, by simpa using listening⟩
        · rw [unfinished_concat]
          exact counted
        · rw [served_concat]
          exact (perm_handed ..).trans placed
        · exact absurd ⟨isOnce, Nat.le_add_left 1 _⟩ last
      · exact ⟨counted, (perm_closed ..).trans placed, by rintro ⟨⟩, by rintro ⟨⟩, single,
          by simpa using listening⟩
  | uncounting =>
      rw [here] at counted placed single listening
      refine ⟨?_, placed, by rintro ⟨⟩, by rintro ⟨⟩, single, by simpa using listening⟩
      have one : state.active = unfinished state.threads + 1 := counted
      simp only [one, Nat.add_sub_cancel]
      rfl
  | leaving =>
      rw [here] at counted placed single listening
      exact ⟨counted, placed, by rintro ⟨⟩, by rintro ⟨⟩, single, by simp⟩
  | checking =>
      rw [here] at counted placed single listening
      dsimp only
      split_ifs with busy
      · exact ⟨counted, placed, fun _ => busy, by rintro ⟨⟩, single, by simpa using listening⟩
      · exact ⟨counted, placed, by rintro ⟨⟩, fun _ => not_not.mp busy, single,
          by simpa using listening⟩
  | asleep | returned =>
      exact ⟨counted, placed, asleep, returned, single, listening⟩

/-- A wake-up takes nothing away from the main thread. -/
theorem sound_wake {once : Bool} {state : State} (counted : state.active =
      unfinished state.threads + state.main.extra)
    (placed : (state.main.held ++ served state.threads ++ state.closed).Perm
      (List.range state.connections))
    (returned : state.main = .returned → state.active = 0)
    (single : once = true → state.threads = [] ∨
      state.threads.length = 1 ∧ state.main.left = true)
    (listening : state.listening = false ↔
      state.main = .checking ∨ state.main = .asleep ∨ state.main = .returned) :
    Sound once state.wake := by
  unfold State.wake
  by_cases sleeping : state.main = .asleep
  · simp only [sleeping, if_true] at counted placed single listening ⊢
    exact ⟨counted, placed, by rintro ⟨⟩, by rintro ⟨⟩, single, by simpa using listening⟩
  · simp only [if_neg sleeping]
    exact ⟨counted, placed, fun here => absurd here sleeping, returned, single, listening⟩

/-- A thread replaced in its place. -/
theorem set_thread {threads : List ClientThread} {index : Nat} {thread : ClientThread}
    (here : threads[index]? = some thread) (next : ClientThread) :
    ∃ before after, threads = before ++ thread :: after ∧
      threads.set index next = before ++ next :: after := by
  obtain ⟨inside, found⟩ := List.getElem?_eq_some_iff.mp here
  obtain ⟨before, after, whole, -, replaced⟩ : ∃ before after,
      threads = before ++ threads[index] :: after ∧ before.length = index ∧
        threads.set index next = before ++ next :: after := List.exists_of_set inside
  rw [found] at whole
  exact ⟨before, after, whole, replaced⟩

theorem sound_thread {once : Bool} {state : State} (sound : Sound once state) (index : Nat) :
    Sound once (threadStep state index) := by
  have whole := sound
  obtain ⟨counted, placed, asleep, returned, single, listening⟩ := sound
  unfold threadStep
  cases here : state.threads[index]? with
  | none => exact whole
  | some thread =>
      obtain ⟨connection, point⟩ := thread
      cases point with
      | finished => exact whole
      | serving =>
          obtain ⟨before, after, threads, replaced⟩ := set_thread here ⟨connection, .counting⟩
          refine ⟨?_, ?_, asleep, returned, fun isOnce => ?_, listening⟩
          · simp only [replaced]
            rw [counted, threads]
            simp [unfinished]
          · simp only [replaced]
            rw [threads, served_middle] at placed
            rw [served_middle]
            exact (perm_middle ..).trans placed
          · rcases single isOnce with none | ⟨one, left⟩
            · rw [none] at here
              cases here
            · exact Or.inr ⟨by rw [← one]; exact List.length_set, left⟩
      | counting =>
          obtain ⟨before, after, threads, replaced⟩ := set_thread here ⟨connection, .finished⟩
          have one : unfinished state.threads =
              unfinished (before ++ ⟨connection, .finished⟩ :: after) + 1 := by
            rw [threads]
            simp [unfinished]
            omega
          have busy : state.active ≠ 0 := by omega
          simp only [if_pos busy]
          refine sound_wake ?_ ?_ ?_ ?_ listening
          · simp only [replaced]
            omega
          · simp only [replaced]
            rw [threads, served_middle] at placed
            rw [served_middle]
            exact placed
          · exact fun ended => absurd (returned ended) busy
          · intro isOnce
            rcases single isOnce with none | ⟨one, left⟩
            · rw [none] at here
              cases here
            · exact Or.inr ⟨by rw [← one]; exact List.length_set, left⟩

theorem sound_step (once : Bool) (state : State) (action : Action) (sound : Sound once state)
    (_ : True) : Sound once (step once state action) := by
  cases action with
  | main accept succeeds => exact sound_main sound accept succeeds
  | thread index => exact sound_thread sound index
  | signal =>
      exact ⟨sound.counted, sound.placed, sound.asleep, sound.returned, sound.single,
        sound.listening⟩
  | spuriousWake =>
      exact sound_wake sound.counted sound.placed sound.returned sound.single sound.listening

/-! ## The end of the server -/

theorem unfinished_eq_zero {threads : List ClientThread} (none : unfinished threads = 0) :
    ∀ thread ∈ threads, thread.point = .finished := by
  intro thread here
  have notCounted := List.countP_eq_zero.mp none thread here
  simpa using notCounted

theorem served_of_finished {threads : List ClientThread}
    (finished : ∀ thread ∈ threads, thread.point = .finished) : served threads = [] := by
  have noServing : (threads.filter fun thread => thread.point = .serving) = [] := by
    refine List.filter_eq_nil_iff.mpr fun thread here => ?_
    rw [finished thread here]
    decide
  rw [served, noServing, List.map_nil]

/-- When the main function has returned, nobody is being served and everything
is closed. -/
theorem Sound.end_ {once : Bool} {state : State} (sound : Sound once state)
    (returned : state.main = .returned) :
    (∀ thread ∈ state.threads, thread.point = .finished) ∧
      state.closed.Perm (List.range state.connections) ∧ state.listening = false := by
  have counted := sound.counted
  rw [sound.returned returned, returned] at counted
  have finished := unfinished_eq_zero (show unfinished state.threads = 0 by omega)
  have placed := sound.placed
  rw [returned, served_of_finished finished] at placed
  exact ⟨finished, placed, sound.listening.mpr (Or.inr (Or.inr returned))⟩

/-- No step of the main thread or of a client thread changes the state. -/
def Stuck (once : Bool) (state : State) : Prop :=
  (∀ accept succeeds, mainStep once state accept succeeds = state) ∧
    ∀ index, threadStep state index = state

/-- No wake-up is lost: a server that has left its loop goes on to its end. -/
theorem Sound.stuck {once : Bool} {state : State} (sound : Sound once state)
    (left : state.main.left = true) (stuck : Stuck once state) : state.main = .returned := by
  have mainStays := congrArg State.main (stuck.1 .failed true)
  cases here : state.main with
  | top | accepting | allocating | counting | creating | uncounting =>
      rw [here] at left
      cases left
  | returned => rfl
  | leaving =>
      unfold mainStep at mainStays
      rw [here] at mainStays
      cases mainStays
  | checking =>
      unfold mainStep at mainStays
      rw [here] at mainStays
      dsimp only at mainStays
      split_ifs at mainStays
  | asleep =>
      -- somebody is still counted, and whoever it is can go on
      have busy := sound.asleep here
      have counted := sound.counted
      rw [here] at counted
      have some : 0 < unfinished state.threads := by
        have extra : MainPoint.asleep.extra = 0 := rfl
        omega
      obtain ⟨thread, inside, notFinished⟩ := List.countP_pos_iff.mp some
      obtain ⟨index, found⟩ := List.mem_iff_getElem?.mp inside
      have threadStays := stuck.2 index
      unfold threadStep at threadStays
      rw [found] at threadStays
      dsimp only at threadStays
      cases point : thread.point with
      | finished =>
          rw [point] at notFinished
          cases notFinished
      | serving =>
          rw [point] at threadStays
          have closedStays := congrArg (fun next => next.closed.length) threadStays
          simp at closedStays
      | counting =>
          rw [point] at threadStays
          have woken := congrArg State.main threadStays
          simp [State.wake, here] at woken

/-! ## After a signal -/

/-- The connection that `accept` may still be waiting for. -/
def MainPoint.pendingAccept (main : MainPoint) : Nat := if main = .accepting then 1 else 0

/-- No more connections than this are accepted. -/
structure Bounded (bound : Nat) (state : State) : Prop where
  stop : state.stop = true
  few : state.connections + state.main.pendingAccept ≤ bound

theorem bounded_main {once : Bool} {bound : Nat} {state : State} (bounded : Bounded bound state)
    (accept : Accept) (succeeds : Bool) :
    Bounded bound (mainStep once state accept succeeds) := by
  obtain ⟨stop, few⟩ := bounded
  have fewer : state.connections ≤ bound := Nat.le_trans (Nat.le_add_right ..) few
  unfold mainStep
  cases here : state.main with
  | top =>
      simp only [stop, if_true]
      exact ⟨rfl, fewer⟩
  | accepting =>
      rw [here] at few
      cases accept with
      | connection => exact ⟨stop, few⟩
      | interrupted | failed => exact ⟨stop, fewer⟩
  | allocating connection =>
      dsimp only
      split_ifs
      · exact ⟨stop, fewer⟩
      · exact ⟨stop, fewer⟩
  | counting | uncounting | leaving => exact ⟨stop, fewer⟩
  | creating connection =>
      dsimp only
      split_ifs
      · exact ⟨stop, fewer⟩
      · exact ⟨stop, fewer⟩
      · exact ⟨stop, fewer⟩
  | checking =>
      dsimp only
      split_ifs
      · exact ⟨stop, fewer⟩
      · exact ⟨stop, fewer⟩
  | asleep | returned => exact ⟨stop, few⟩

theorem bounded_wake {bound : Nat} {state : State} (bounded : Bounded bound state) :
    Bounded bound state.wake := by
  refine ⟨bounded.stop, ?_⟩
  unfold State.wake
  split_ifs with sleeping
  · exact Nat.le_trans (Nat.le_add_right ..) bounded.few
  · exact bounded.few

theorem bounded_thread {bound : Nat} {state : State} (bounded : Bounded bound state)
    (index : Nat) : Bounded bound (threadStep state index) := by
  unfold threadStep
  cases state.threads[index]? with
  | none => exact bounded
  | some thread =>
      dsimp only
      cases thread.point with
      | serving => exact ⟨bounded.stop, bounded.few⟩
      | counting => exact bounded_wake ⟨bounded.stop, bounded.few⟩
      | finished => exact bounded

theorem bounded_step (once : Bool) {bound : Nat} (state : State) (action : Action)
    (bounded : Bounded bound state) (_ : True) : Bounded bound (step once state action) := by
  cases action with
  | main accept succeeds => exact bounded_main bounded accept succeeds
  | thread index => exact bounded_thread bounded index
  | signal => exact ⟨rfl, bounded.few⟩
  | spuriousWake => exact bounded_wake bounded

/-- In every state the server can be in, whatever its calls return and however
its threads interleave: the clients are counted, every connection is in one
place and with `--once` there is one client at most; a server that has left its
loop is not stuck before it returns, and then every client is done and everything
is closed; after a signal one more connection is accepted at most. -/
theorem server_shutdown (once : Bool) (schedule : List Action) :
    let state := run (step once) start schedule
    Sound once state ∧
      (state.main = .returned → (∀ thread ∈ state.threads, thread.point = .finished) ∧
        state.closed.Perm (List.range state.connections) ∧ state.listening = false) ∧
      (state.main.left = true → Stuck once state → state.main = .returned) ∧
      (state.stop = true → ∀ later,
        (run (step once) state later).connections ≤ state.connections + 1) := by
  intro state
  have sound : Sound once state :=
    run_invariant (Sound once) (sound_step once) start schedule (sound_start once)
      (admits_true (step once) start schedule)
  refine ⟨sound, sound.end_, sound.stuck, fun stop later => ?_⟩
  have bounded : Bounded (state.connections + 1) state := by
    refine ⟨stop, Nat.add_le_add_left ?_ _⟩
    unfold MainPoint.pendingAccept
    split_ifs
    · exact Nat.le_refl 1
    · exact Nat.zero_le 1
  have after := run_invariant (Bounded (state.connections + 1)) (bounded_step once) state later
    bounded (admits_true (step once) state later)
  exact Nat.le_trans (Nat.le_add_right ..) after.few

end EmbeddedRuntime.Network.AcceptLoop
