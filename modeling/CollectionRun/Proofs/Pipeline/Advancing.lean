import CollectionRun.Pipeline.Run
import CollectionRun.Proofs.Acts

namespace CollectionRun

variable {σ : Type}

namespace Stage

/-- The work comes of the stage, if it is played from the right journal. -/
def Gives (s : Stage σ) (c : Config) (entries : Entries) (work : Work) : Prop :=
  ∃ j, ((s.process c entries).run j).1 = work

structure Works (observers : List (Observer σ)) (c : Config) (s : Stage σ) (entries : Entries)
    (j : Journal σ) (work : Work) (j' : Journal σ) : Prop where
  present : s.missing entries = []
  started : ∃ j₁, (Observer.tellBefore observers s.name).play j = (.ok (), j₁) ∧
    (s.process c entries).run j₁ = (work, j')

theorem Works.gives {observers : List (Observer σ)} {c : Config} {s : Stage σ} {entries : Entries}
    {j j' : Journal σ} {work : Work} (h : s.Works observers c entries j work j') :
    s.Gives c entries work := by
  obtain ⟨-, j₁, -, process⟩ := h
  exact ⟨j₁, congrArg Prod.fst process⟩

/-- What an attempt at a stage comes to: its ending, and the journal after it. -/
inductive Advances (observers : List (Observer σ)) (c : Config) (s : Stage σ) (entries : Entries)
    (j : Journal σ) : Ending → Journal σ → Prop
  | lacking (missing : s.missing entries ≠ []) :
    Advances observers c s entries j ⟨entries, some ⟨.missingKeys s.name (s.missing entries), []⟩⟩
      { j with events := j.events ++ [.keysMissing s.name (s.missing entries)] }
  | heldUp {f : Failure} {j₁ : Journal σ} (present : s.missing entries = [])
      (before : (Observer.tellBefore observers s.name).play j = (.error f, j₁)) :
    Advances observers c s entries j ⟨entries, some f⟩ j₁
  | halted {f : Failure} {left : Entries} {j₂ : Journal σ}
      (works : s.Works observers c entries j ⟨.error f, left⟩ j₂) (halts : f.fault.isHalt = true) :
    Advances observers c s entries j ⟨left, some f⟩ j₂
  | raised {f : Failure} {left : Entries} {j₂ j₃ : Journal σ}
      (works : s.Works observers c entries j ⟨.error f, left⟩ j₂) (caught : f.fault.isHalt = false)
      (failed : (Observer.tellFailed observers s.name f).play
        { j₂ with events := j₂.events ++ [.stageRaised s.name] } = (.ok (), j₃)) :
    Advances observers c s entries j ⟨left, some f⟩ j₃
  | raisedUntold {f g : Failure} {left : Entries} {j₂ j₃ : Journal σ}
      (works : s.Works observers c entries j ⟨.error f, left⟩ j₂) (caught : f.fault.isHalt = false)
      (failed : (Observer.tellFailed observers s.name f).play
        { j₂ with events := j₂.events ++ [.stageRaised s.name] } = (.error g, j₃)) :
    Advances observers c s entries j ⟨left, some g⟩ j₃
  | returnedUntold {result : StageResult} {g : Failure} {left : Entries} {j₂ j₃ : Journal σ}
      (works : s.Works observers c entries j ⟨.ok result, left⟩ j₂)
      (after : (Observer.tellAfter observers s.name result).play j₂ = (.error g, j₃)) :
    Advances observers c s entries j ⟨left, some g⟩ j₃
  | declined {result handed : StageResult} {left : Entries} {j₂ j₃ : Journal σ}
      (works : s.Works observers c entries j ⟨.ok result, left⟩ j₂)
      (after : (Observer.tellAfter observers s.name result).play j₂ = (.ok handed, j₃))
      (failed : handed.status = .failed) :
    Advances observers c s entries j ⟨left, some ⟨.stageFailed s.name handed.error, []⟩⟩ j₃
  | completed {result handed : StageResult} {left : Entries} {j₂ j₃ : Journal σ}
      (works : s.Works observers c entries j ⟨.ok result, left⟩ j₂)
      (after : (Observer.tellAfter observers s.name result).play j₂ = (.ok handed, j₃))
      (going : handed.status ≠ .failed) :
    Advances observers c s entries j ⟨left.update handed.data, none⟩ j₃

theorem advances_of_raised {observers : List (Observer σ)} {c : Config} {s : Stage σ}
    {entries left : Entries} {j j₂ j₃ : Journal σ} {f : Failure} {told : Except Failure StageResult}
    (works : s.Works observers c entries j ⟨.error f, left⟩ j₂)
    (settled : (s.settle observers (.error f)).play j₂ = (told, j₃)) :
    ∃ g, told = .error g ∧ Advances observers c s entries j ⟨left, some g⟩ j₃ := by
  rw [settle] at settled
  by_cases halts : f.fault.isHalt = true
  · rw [if_pos halts] at settled
    obtain ⟨rfl, rfl⟩ := Prod.mk.inj settled
    exact ⟨f, rfl, .halted works halts⟩
  · have caught : f.fault.isHalt = false := Bool.eq_false_iff.mpr halts
    rw [if_neg halts, Act.play_bind, Act.play_note] at settled
    dsimp only at settled
    rw [Act.play_bind] at settled
    cases failed : (Observer.tellFailed observers s.name f).play
        { j₂ with events := j₂.events ++ [.stageRaised s.name] } with
    | mk passed j₄ =>
    rw [failed] at settled
    cases passed with
    | error g =>
      obtain ⟨rfl, rfl⟩ := Prod.mk.inj settled
      exact ⟨g, rfl, .raisedUntold works caught failed⟩
    | ok _ =>
      obtain ⟨rfl, rfl⟩ := Prod.mk.inj settled
      exact ⟨f, rfl, .raised works caught failed⟩

theorem advances (observers : List (Observer σ)) (c : Config) (s : Stage σ) (entries : Entries)
    (j : Journal σ) :
    Advances observers c s entries j ((s.advance observers c entries).run j).1
      ((s.advance observers c entries).run j).2 := by
  unfold advance
  by_cases present : s.missing entries = []
  · simp only [present, List.isEmpty_nil, if_true]
    cases before : (Observer.tellBefore observers s.name).play j with
    | mk told j₁ =>
    cases told with
    | error f =>
      have attended : (s.attend observers c entries).run j = (⟨.error f, entries⟩, j₁) :=
        run_bind before
      rw [run_bind attended]
      exact .heldUp present before
    | ok _ =>
      cases process : (s.process c entries).run j₁ with
      | mk work j₂ =>
      have works : s.Works observers c entries j work j₂ := ⟨present, j₁, before, process⟩
      obtain ⟨outcome, left⟩ := work
      cases settled : (s.settle observers outcome).play j₂ with
      | mk told j₃ =>
      have attended : (s.attend observers c entries).run j = (⟨told, left⟩, j₃) :=
        (run_bind before).trans ((run_bind process).trans (run_bind settled))
      rw [run_bind attended]
      cases outcome with
      | error f =>
        obtain ⟨g, rfl, advanced⟩ := advances_of_raised works settled
        exact advanced
      | ok result =>
        have after : (Observer.tellAfter observers s.name result).play j₂ = (told, j₃) := settled
        cases told with
        | error g => exact .returnedUntold works after
        | ok handed =>
          by_cases failed : handed.status = .failed
          · simp only [failed, if_true]
            exact .declined works after failed
          · simp only [failed, if_false]
            exact .completed works after failed
  · have some : (s.missing entries).isEmpty = false := List.isEmpty_eq_false_iff.mpr present
    simp only [some]
    exact .lacking present

end Stage

namespace Pipeline

/-- A run ends after all its stages or at the first whose attempt fails; what every attempt that
succeeds keeps holds up to there. -/
theorem runFrom_cases {observers : List (Observer σ)} {c : Config} {stages : List (Stage σ)}
    {entries : Entries} {j : Journal σ} (Holds : List (Stage σ) → Entries → Journal σ → Prop)
    (start : Holds [] entries j)
    (step : ∀ done s later entries j entries' j', stages = done ++ s :: later →
      Holds done entries j → s.Advances observers c entries j ⟨entries', none⟩ j' →
      Holds (done ++ [s]) entries' j') :
    let ran := (runFrom observers c entries stages).run j
    (ran.1.failure = none ∧ Holds stages ran.1.entries ran.2) ∨
      ∃ done s later entries' j' left f, stages = done ++ s :: later ∧ Holds done entries' j' ∧
        s.Advances observers c entries' j' ⟨left, some f⟩ ran.2 ∧ ran.1 = ⟨left, some f⟩ := by
  suffices general : ∀ rest done entries j, stages = done ++ rest → Holds done entries j →
      let ran := (runFrom observers c entries rest).run j
      (ran.1.failure = none ∧ Holds stages ran.1.entries ran.2) ∨
        ∃ done s later entries' j' left f, stages = done ++ s :: later ∧ Holds done entries' j' ∧
          s.Advances observers c entries' j' ⟨left, some f⟩ ran.2 ∧ ran.1 = ⟨left, some f⟩ from
    general stages [] entries j rfl start
  intro rest
  induction rest with
  | nil =>
    intro done entries j split holds
    rw [List.append_nil] at split
    subst split
    exact .inl ⟨rfl, holds⟩
  | cons s rest ih =>
    intro done entries j split holds
    have advances := s.advances observers c entries j
    cases attempt : (s.advance observers c entries).run j with
    | mk ending j' =>
    rw [attempt] at advances
    rw [runFrom, run_bind attempt]
    obtain ⟨entries', failure?⟩ := ending
    cases failure? with
    | none =>
      refine ih (done ++ [s]) entries' j' ?_ (step done s rest entries j entries' j' split holds advances)
      rw [split, List.append_assoc]
      rfl
    | some f => exact .inr ⟨done, s, rest, entries, j, entries', f, split, holds, advances, rfl⟩

end Pipeline

end CollectionRun
