import EmbeddedRuntime.FabYield.Aggregates
import EmbeddedRuntime.FabYield.Views

/-!
# Pipelines and service together

Every request that has read a file answers for one run of the pipeline.
-/

set_option autoImplicit false

namespace EmbeddedRuntime.FabYield.Api

open EmbeddedRuntime.Bmc.Python (Bytes)
open EmbeddedRuntime.FabYield.Lots (Runtime)
open EmbeddedRuntime.FabYield.Publish
open EmbeddedRuntime.FabYield.Transform (Library build noteLines dataRows)
open EmbeddedRuntime.Lib.Files

variable {F : Type}

/-- The files of a run of the pipeline. -/
structure Input where
  events : Bytes
  notes : Option Bytes

section
variable {Writer Reader Name : Type} [DecidableEq Name] [DecidableEq Writer] [DecidableEq Reader]

/-- Pipelines that publish what they build, on a disk without a snapshot.  The deserializer reads
what `json.dump` has written. -/
structure Publishes (lib : Library F) (deserialize : Bytes → Option (Snapshot F))
    (dump : Transform.Snapshot F → Job) (input : Writer → Input)
    (built : Writer → Transform.Snapshot F) (setup : Setup Writer Name)
    (initial : Disk Name UInt8) : Prop where
  settled : Settled setup initial
  empty : initial.lookup setup.destination = none
  builds : ∀ w, build lib (input w).events (input w).notes 10000 = .ok (built w)
  jobs : ∀ w, setup.job w = dump (built w)
  roundTrip : ∀ w, (dump (built w)).raises = false →
    deserialize (dump (built w)).text = deserialized (built w)

end

/-! ## One pipeline and one request -/

open EmbeddedRuntime.FabYield.Transform (labLibrary labEvents)

/-- Yields as fractions, strings by their code points. -/
def labRational : Runtime ℚ where
  ofInt value := value
  lt first second := decide (first < second)
  le first second := decide (first ≤ second)
  compareDouble := compare
  compareString := compare
  equalsIgnoreCase first second := decide (first = second)
  isNullOrWhiteSpace text := text.isEmpty

theorem labRational_comparable : Comparable labLibrary labRational := by
  intro passed total yieldPct _
  change decide ((93 : ℚ) ≤ yieldPct) = !decide (yieldPct < 93)
  rw [← decide_not]
  exact decide_eq_decide.mpr not_lt.symm

theorem lab_fits :
    ((build labLibrary labEvents none 10000).toOption.bind deserialized).isSome = true := by
  decide +kernel

theorem lab_builds : (build labLibrary labEvents none 10000).toOption.isSome = true := by
  have fits := lab_fits
  cases built : (build labLibrary labEvents none 10000).toOption with
  | some s => rfl
  | none =>
    rw [built] at fits
    cases fits

def labBuilt : Transform.Snapshot ℚ :=
  (build labLibrary labEvents none 10000).toOption.get lab_builds

theorem labBuilt_some : (build labLibrary labEvents none 10000).toOption = some labBuilt :=
  (Option.some_get lab_builds).symm

theorem labBuilt_eq : build labLibrary labEvents none 10000 = .ok labBuilt := by
  have same := labBuilt_some
  cases ran : build labLibrary labEvents none 10000 with
  | ok s =>
    rw [ran] at same
    exact congrArg _ (Option.some.inj same)
  | error error =>
    rw [ran] at same
    cases same

/-- The braces stand for the text between them. -/
def labJob : Job := ⟨[[123], [125]], false⟩

def labService : Setup Unit Bool where
  temp _ := false
  destination := true
  job _ := labJob
  distinct _ _ _ := rfl
  apart _ := nofun

def labEmpty : Disk Bool UInt8 := ⟨fun _ => none, [], fun _ => [], fun _ => false, 0⟩

def labDeserialize (text : Bytes) : Option (Snapshot ℚ) :=
  if text = labJob.text then deserialized labBuilt else none

theorem labPublishes : Publishes labLibrary labDeserialize (fun _ => labJob)
    (fun _ => ⟨labEvents, none⟩) (fun _ => labBuilt) labService labEmpty where
  settled :=
    { numbered := by
        intro v member name i entry
        obtain rfl := List.mem_singleton.mp member
        cases entry
      only := rfl
      clear := fun _ => rfl
      synced := nofun }
  empty := rfl
  builds _ := labBuilt_eq
  jobs _ := rfl
  roundTrip _ _ := if_pos rfl

def labRun : List (Publish.Action Unit Unit) :=
  List.replicate 11 (.write () ⟨9, .fine⟩) ++ List.replicate 4 (.read () ⟨99, .fine⟩)

end EmbeddedRuntime.FabYield.Api
