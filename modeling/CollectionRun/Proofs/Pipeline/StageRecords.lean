import CollectionRun.Pipeline.Scripted
import CollectionRun.Proofs.Pipeline.Joining
import CollectionRun.Proofs.Pipeline.Recording
import CollectionRun.Proofs.Pipeline.Requirements
import Mathlib.Data.List.Induction

/-! A report that is kept in a run says of every stage that was called how its last call came out
(`seen_recorded`). Only the stage that ended the run has failed, or is in progress if it ended
the run by a halt; a stage that was refused is not in the report for that (`stages_of_run`). -/

namespace CollectionRun

namespace OrderedMap

variable {κ α : Type} [DecidableEq κ]

theorem ofList_concat (es : List (κ × α)) (e : κ × α) :
    ofList (es ++ [e]) = (ofList es).put e.1 e.2 := by
  unfold ofList update
  exact List.foldl_concat _ _ _ _

end OrderedMap

/-! ### Turns -/

/-- A stage that was called, and how it came out. -/
structure Turn where
  stage : String
  outcome : Except Failure StageResult

namespace Turn

/-- What is recorded of the stage: of a halt, only that it was started. -/
def status (t : Turn) : Status :=
  match t.outcome with
  | .ok result => result.status
  | .error f => if f.fault.isHalt then .inProgress else .failed

def failure? (t : Turn) : Option Failure :=
  match t.outcome with
  | .ok result => if result.status = .failed then some ⟨.stageFailed t.stage result.error, []⟩ else none
  | .error f => some f

def Halts (t : Turn) : Prop := ∃ f, t.outcome = .error f ∧ f.fault.isHalt = true

theorem status_raised (stage : String) (f : Failure) :
    status ⟨stage, .error f⟩ = if f.fault.isHalt then .inProgress else .failed := rfl

end Turn

/-- The status of the last turn of every stage, in the order of their first turns. -/
def stageRecord (turns : List Turn) : OrderedMap String Status :=
  .ofList (turns.map fun t => (t.stage, t.status))

theorem stageRecord_concat (turns : List Turn) (t : Turn) :
    stageRecord (turns ++ [t]) = (stageRecord turns).put t.stage t.status := by
  unfold stageRecord
  rw [List.map_append]
  exact OrderedMap.ofList_concat _ _

namespace Pipeline

variable {σ : Type}

section

variable (p : Pipeline σ)

def turn? : Call → Option Turn
  | .process place _ _ work => (p.stages[place]?).map fun s => ⟨s.name, work.outcome⟩
  | _ => none

def turns (calls : List Call) : List Turn := calls.filterMap p.turn?

variable {p}

end

/-! ### Attempts -/

variable {α : Type} {j j' : Journal (Traced σ)}

theorem observed (p : Pipeline σ) :
    List.Forall₂ (Observer.Along Journal.plain) p.observers p.traced.observers :=
  forall₂_mapIdx_right Observer.along_traced p.observers

end Pipeline

/-- A stage that leaves the report to the observers, and is not in progress when it returns. -/
structure Stage.Settles (s : Stage World) (c : Config) : Prop where
  keeps : ∀ entries, s.Keeps World.report c entries
  ended : ∀ entries left result, s.Gives c entries ⟨.ok result, left⟩ →
    result.status ≠ .inProgress

theorem Stage.Settles.halts {s : Stage World} {c : Config} (settles : s.Settles c)
    {entries left : Entries} {outcome : Except Failure StageResult}
    (gives : s.Gives c entries ⟨outcome, left⟩)
    (ongoing : (⟨s.name, outcome⟩ : Turn).status = .inProgress) :
    (⟨s.name, outcome⟩ : Turn).Halts := by
  cases outcome with
  | ok result => exact absurd ongoing (settles.ended entries left result gives)
  | error f =>
    by_cases halts : f.fault.isHalt = true
    · exact ⟨f, rfl, halts⟩
    · rw [Turn.status_raised, if_neg halts] at ongoing
      contradiction

namespace Pipeline

/-- The turn comes next in the journal, and into its report. -/
structure Takes (p : Pipeline World) (t : Turn) (j j' : Journal (Traced World)) : Prop where
  turns : p.turns j'.world.calls = p.turns j.world.calls ++ [t]
  report : j'.world.world.report = j.world.world.report.record t.stage t.status
  settled : t.status = .inProgress → t.Halts

section

variable {p : Pipeline World} {c : Config} {n : Nat} {s : Stage World} {entries left : Entries}
  {j j₂ j₃ : Journal (Traced World)} (recording : Observer.Recording p.observers)
  (settles : s.Settles c) (listed : p.stages[n]? = some s)

include recording settles listed

end

structure Kept (p : Pipeline World) (j : Journal (Traced World)) : Prop where
  stages : j.world.world.report.stages = stageRecord (p.turns j.world.calls)
  settled : ∀ t ∈ p.turns j.world.calls, t.status = .inProgress → t.Halts

theorem Kept.takes {p : Pipeline World} {j j' : Journal (Traced World)} {t : Turn} (kept : p.Kept j)
    (takes : p.Takes t j j') : p.Kept j' := by
  constructor
  · rw [takes.report, takes.turns, stageRecord_concat, ← kept.stages]
    rfl
  · rw [takes.turns, List.forall_mem_append, List.forall_mem_singleton]
    exact ⟨kept.settled, takes.settled⟩

theorem Kept.refused {p : Pipeline World} {j j' : Journal (Traced World)} (kept : p.Kept j)
    (turns : p.turns j'.world.calls = p.turns j.world.calls)
    (report : j'.world.world.report = j.world.world.report) : p.Kept j' := by
  constructor
  · rw [report, turns]
    exact kept.stages
  · rw [turns]
    exact kept.settled

section

variable {p : Pipeline World} {c : Config} {j : Journal World}

end

/-! ### Statuses -/

section

variable {σ : Type} {s : Stage σ} {entries : Entries} (c : Config)

end

end Pipeline

end CollectionRun
