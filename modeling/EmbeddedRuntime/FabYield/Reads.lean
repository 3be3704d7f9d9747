import EmbeddedRuntime.FabYield.Publication
import Mathlib.Data.List.Induction

/-!
# Requests, failures and what they find

A request reads what the name of the snapshot showed when it opened the file.  A
power failure brings back something the name has shown.
-/

set_option autoImplicit false

namespace EmbeddedRuntime.FabYield.Publish

open EmbeddedRuntime.Bmc.Python (Bytes)
open EmbeddedRuntime.Lib.Files EmbeddedRuntime.Lib.Machine

section
variable {Writer Reader Name : Type} [DecidableEq Name] [DecidableEq Writer] [DecidableEq Reader]
variable {setup : Setup Writer Name} {initial : Disk Name UInt8}

/-- The state behind a schedule. -/
def after (setup : Setup Writer Name) (initial : Disk Name UInt8)
    (schedule : List (Action Writer Reader)) : State Writer Reader Name :=
  run (step setup) (start initial) schedule

theorem after_snoc (schedule : List (Action Writer Reader)) (action : Action Writer Reader) :
    after setup initial (schedule ++ [action]) = step setup (after setup initial schedule) action :=
  run_append ..

theorem after_sound (settled : Settled setup initial) (schedule : List (Action Writer Reader)) :
    Sound setup initial (after setup initial schedule) :=
  run_sound (start_sound settled) schedule

/-- What was shown at some moment has stayed as it was. -/
theorem after_shown (settled : Settled setup initial) (before rest : List (Action Writer Reader))
    {i : Nat} (shown : Shown setup (after setup initial before).disk i) :
    (after setup initial (before ++ rest)).disk.content i =
      (after setup initial before).disk.content i := by
  unfold after
  rw [run_append]
  exact run_shown (after_sound settled before) rest shown

omit [DecidableEq Name] [DecidableEq Writer] [DecidableEq Reader] in
theorem shown_now {s : State Writer Reader Name} {i : Nat}
    (entry : s.disk.entries setup.destination = some i) :
    Shown setup s.disk i ∧ visible setup s = some (s.disk.content i) :=
  ⟨⟨_, entries_mem s.disk, entry⟩, by rw [visible, Disk.lookup, entry]; rfl⟩

/-! ## Requests -/

/-- The moment at which a request has opened the file it reads. -/
theorem reading_opened (schedule : List (Action Writer Reader)) {r : Reader} {i : Nat} {text : Bytes}
    (reading : (after setup initial schedule).readers r = .reading i text) :
    ∃ before o rest, schedule = before ++ .read r o :: rest ∧
      (after setup initial before).disk.entries setup.destination = some i := by
  induction schedule using List.reverseRecOn generalizing text with
  | nil => cases reading
  | append_singleton schedule action ih =>
    have earlier : ∀ text, (after setup initial schedule).readers r = .reading i text →
        ∃ before o rest, schedule ++ [action] = before ++ .read r o :: rest ∧
          (after setup initial before).disk.entries setup.destination = some i := by
      intro text reading
      obtain ⟨before, o, rest, split, entry⟩ := ih reading
      exact ⟨before, o, rest ++ [action], by simp [split], entry⟩
    rw [after_snoc] at reading
    cases action with
    | write w o => exact earlier text reading
    | read other o =>
      change Function.update (after setup initial schedule).readers other _ r = _ at reading
      by_cases same : r = other
      · subst same
        rw [Function.update_self] at reading
        rcases snapshotRead_reading o reading with ⟨-, entry, -⟩ | ⟨before, here, -⟩
        · exact ⟨schedule, o, [], rfl, entry⟩
        · exact earlier before here
      · rw [Function.update_of_ne same] at reading
        exact earlier text reading

omit [DecidableEq Name] in
/-- A stream that has no more bytes has been read as a whole. -/
theorem snapshotRead_finished {disk : Disk Name UInt8} {destination : Name} (o : Outcome)
    {reading : Reading} {text : Bytes}
    (finished : snapshotRead destination o disk reading = .finished (some text)) :
    reading = .finished (some text) ∨
      ∃ i, reading = .reading i text ∧ (text <+: disk.content i → disk.content i = text) := by
  cases reading with
  | starting =>
    rw [snapshotRead] at finished
    split at finished <;> cases finished
  | found =>
    rw [snapshotRead] at finished
    split at finished <;> cases finished
  | reading i before =>
    rw [snapshotRead] at finished
    split at finished
    · dsimp only at finished
      split at finished
      · rename_i empty
        cases finished
        refine .inr ⟨i, rfl, ?_⟩
        rintro ⟨rest, whole⟩
        rw [← whole, List.drop_left] at empty
        have rest_nil : rest = [] := by
          cases rest with
          | nil => rfl
          | cons byte rest => simp at empty
        rw [← whole, rest_nil, List.append_nil]
      · cases finished
    · cases finished
  | finished result => exact .inl finished

theorem read_whole (settled : Settled setup initial) (schedule : List (Action Writer Reader))
    {r : Reader} {text : Bytes}
    (finished : (after setup initial schedule).readers r = .finished (some text)) :
    ∃ before o rest, schedule = before ++ .read r o :: rest ∧
      visible setup (after setup initial before) = some text := by
  induction schedule using List.reverseRecOn with
  | nil => cases finished
  | append_singleton schedule action ih =>
    have earlier : (after setup initial schedule).readers r = .finished (some text) →
        ∃ before o rest, schedule ++ [action] = before ++ .read r o :: rest ∧
          visible setup (after setup initial before) = some text := by
      intro finished
      obtain ⟨before, o, rest, split, shown⟩ := ih finished
      exact ⟨before, o, rest ++ [action], by simp [split], shown⟩
    rw [after_snoc] at finished
    cases action with
    | write w o => exact earlier finished
    | read other o =>
      change Function.update (after setup initial schedule).readers other _ r = _ at finished
      by_cases same : r = other
      · subst same
        rw [Function.update_self] at finished
        rcases snapshotRead_finished o finished with here | ⟨i, reading, whole⟩
        · exact earlier here
        · obtain ⟨-, begun⟩ := (after_sound settled schedule).reading r i text reading
          obtain ⟨before, o', rest, split, entry⟩ := reading_opened schedule reading
          obtain ⟨shown, seen⟩ := shown_now entry
          refine ⟨before, o', rest ++ [.read r o], by simp [split], ?_⟩
          rw [seen, ← after_shown settled before (.read r o' :: rest) shown, ← split, whole begun]
      · rw [Function.update_of_ne same] at finished
        exact earlier finished

/-! ## Pipelines -/

/-- Behind the call of `os.replace`. -/
def Replaced : Phase → Prop
  | .leaving raised | .unlinking raised | .ended raised => raised = false
  | _ => False

/-- One turn of a pipeline at which its text comes up. -/
theorem writeAtomic_replaced {disk : Disk Name UInt8} {name destination : Name} {job : Job}
    (o : Outcome) {phase : Phase} (owns : Owns disk name job phase)
    (replaced : Replaced (writeAtomic name destination job o disk phase).1) :
    Replaced phase ∨ (writeAtomic name destination job o disk phase).2.lookup destination =
      some job.text := by
  cases phase with
  | replacing =>
    refine .inr ?_
    obtain ⟨i, written⟩ := owns
    rw [writeAtomic] at replaced ⊢
    cases ending : o.ending with
    | fine =>
      simp only [ending] at replaced ⊢
      cases moved : disk.rename name destination with
      | none =>
        rw [moved] at replaced
        cases replaced
      | some renamed =>
        obtain ⟨j, entry, rfl⟩ := rename_eq_some moved
        obtain rfl : i = j := Option.some.inj (written.held.entry.symm.trans entry)
        simp [Disk.lookup, written.content]
    | raises =>
      simp only [ending] at replaced
      cases replaced
    | killed =>
      simp only [ending] at replaced
      cases replaced
  | leaving raised =>
    refine .inl ?_
    rw [writeAtomic] at replaced
    cases ending : o.ending <;> simp only [ending] at replaced
    · split at replaced <;> exact replaced
    · split at replaced <;> exact replaced
    · cases replaced
  | unlinking raised =>
    refine .inl ?_
    rw [writeAtomic] at replaced
    cases ending : o.ending <;> simp only [ending] at replaced
    · split at replaced
      · exact replaced
      · cases replaced
    · cases replaced
    · cases replaced
  | ended raised => exact .inl replaced
  | starting =>
    rw [writeAtomic] at replaced
    cases ending : o.ending <;> simp only [ending] at replaced
    · split at replaced <;> cases replaced
    · cases replaced
    · cases replaced
  | writing i left buffer =>
    cases left with
    | nil =>
      rw [writeAtomic] at replaced
      cases ending : o.ending <;> simp only [ending] at replaced
      · split at replaced <;> cases replaced
      · split at replaced <;> cases replaced
      · cases replaced
    | cons piece left =>
      rw [writeAtomic] at replaced
      cases ending : o.ending <;> simp only [ending] at replaced <;> cases replaced
  | flushing i buffer =>
    rw [writeAtomic] at replaced
    cases ending : o.ending <;> simp only [ending] at replaced <;> cases replaced
  | syncing i =>
    rw [writeAtomic] at replaced
    cases ending : o.ending <;> simp only [ending] at replaced <;> cases replaced
  | chmodding i =>
    rw [writeAtomic] at replaced
    cases ending : o.ending <;> simp only [ending] at replaced <;> cases replaced
  | closing i buffer raised =>
    rw [writeAtomic] at replaced
    cases ending : o.ending <;> simp only [ending] at replaced
    · split at replaced <;> cases replaced
    · cases replaced
    · cases replaced
  | littered => cases replaced
  | killed => cases replaced

theorem replaced_visible (settled : Settled setup initial) (schedule : List (Action Writer Reader))
    {w : Writer} (replaced : Replaced ((after setup initial schedule).writers w)) :
    ∃ before, before <+: schedule ∧
      visible setup (after setup initial before) = some (setup.job w).text := by
  induction schedule using List.reverseRecOn with
  | nil => cases replaced
  | append_singleton schedule action ih =>
    have earlier : Replaced ((after setup initial schedule).writers w) →
        ∃ before, before <+: schedule ++ [action] ∧
          visible setup (after setup initial before) = some (setup.job w).text := by
      intro replaced
      obtain ⟨before, inside, shown⟩ := ih replaced
      exact ⟨before, inside.trans (List.prefix_append ..), shown⟩
    have now : after setup initial (schedule ++ [action]) = _ := after_snoc schedule action
    rw [now] at replaced
    cases action with
    | read r o => exact earlier replaced
    | write other o =>
      change Replaced (Function.update (after setup initial schedule).writers other _ w) at replaced
      by_cases same : w = other
      · subst same
        rw [Function.update_self] at replaced
        rcases writeAtomic_replaced o ((after_sound settled schedule).owns w) replaced with
          before | shown
        · exact earlier before
        · refine ⟨schedule ++ [.write w o], List.prefix_refl _, ?_⟩
          rw [now]
          exact shown
      · rw [Function.update_of_ne same] at replaced
        exact earlier replaced

/-! ## Power failures -/

/-- Every directory that a power failure may bring back has been the present one. -/
theorem version_reached (settled : Settled setup initial) (schedule : List (Action Writer Reader))
    {v : Directory Name} (member : v ∈ (after setup initial schedule).disk.versions) :
    ∃ before, before <+: schedule ∧ (after setup initial before).disk.entries = v := by
  induction schedule using List.reverseRecOn with
  | nil =>
    change v ∈ initial.entries :: initial.earlier at member
    rw [settled.only, List.mem_singleton] at member
    exact ⟨[], List.nil_prefix, member.symm⟩
  | append_singleton schedule action ih =>
    have now : after setup initial (schedule ++ [action]) = _ := after_snoc schedule action
    have old : v ∈ (after setup initial schedule).disk.versions → ∃ before,
        before <+: schedule ++ [action] ∧ (after setup initial before).disk.entries = v := by
      intro member
      obtain ⟨before, inside, entries⟩ := ih member
      exact ⟨before, inside.trans (List.prefix_append ..), entries⟩
    rw [now] at member
    cases action with
    | read r o => exact old member
    | write w o =>
      rcases (write_turn (after_sound settled schedule) w o).leaves.added v member with rfl | member
      · exact ⟨_, List.prefix_refl _, by rw [now]; rfl⟩
      · exact old member

theorem recovered_visible (settled : Settled setup initial)
    (schedule : List (Action Writer Reader)) {recovered : Disk Name UInt8}
    (recovers : Recovers (after setup initial schedule).disk recovered) :
    ∃ before, before <+: schedule ∧
      recovered.lookup setup.destination = visible setup (after setup initial before) := by
  obtain ⟨before, ⟨rest, rfl⟩, entries⟩ := version_reached settled schedule recovers.entries
  refine ⟨before, List.prefix_append .., ?_⟩
  rw [visible, Disk.lookup, Disk.lookup, ← entries]
  cases entry : (after setup initial before).disk.entries setup.destination with
  | none => rfl
  | some i =>
    have still : Shown setup (after setup initial (before ++ rest)).disk i :=
      ⟨_, recovers.entries, by rw [← entries, entry]⟩
    have synced := ((after_sound settled (before ++ rest)).whole i still).1
    rw [Option.map_some, Option.map_some, recovers.content i synced,
      after_shown settled before rest (shown_now entry).1]

/-! ## All together -/

end

/-! ## Two pipelines and a request -/

def labSetup : Setup Bool (Option Bool) where
  temp := some
  destination := none
  job w := ⟨[[123], if w then [125] else []], !w⟩
  distinct _ _ := Option.some.inj
  apart _ := nofun

def labDisk : Disk (Option Bool) UInt8 := ⟨fun _ => none, [], fun _ => [], fun _ => false, 0⟩

theorem labDisk_settled : Settled labSetup labDisk where
  numbered _ member _ _ entry := by
    obtain rfl := List.mem_singleton.mp member
    cases entry
  only := rfl
  clear _ := rfl
  synced _ entry := nomatch entry

/-- The dump of one pipeline raises; the other one publishes, and the request reads byte by byte. -/
def labSchedule : List (Action Bool Unit) :=
  List.replicate 5 (.write false ⟨0, .fine⟩) ++ List.replicate 11 (.write true ⟨1, .fine⟩) ++
    List.replicate 2 (.write false ⟨0, .fine⟩) ++ List.replicate 6 (.read () ⟨0, .fine⟩)

end EmbeddedRuntime.FabYield.Publish
