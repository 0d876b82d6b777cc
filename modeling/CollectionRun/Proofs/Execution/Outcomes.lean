import CollectionRun.Proofs.Execution.Ending

/-! The outcomes that a launch, a launch behind a fault and the client can have, whatever the
programs do, and with them those of the stages. -/

namespace CollectionRun

/-- The output of a program cannot be read; this is no failure of the step. -/
def Failure.IsUnread (f : Failure) : Prop := ∃ text, f = ⟨.system text, []⟩

namespace Outline

variable {V α β : Type} {f : Outline V α} {k : α → Outline V β}

def Gives (f : Outline V α) (outcome : Except Failure α) : Prop := ∃ v, (f.play v).1 = outcome

theorem Gives.of_bind_ok {y : β} (h : (f >>= k).Gives (.ok y)) :
    ∃ x, f.Gives (.ok x) ∧ (k x).Gives (.ok y) := by
  obtain ⟨v, h⟩ := h
  rw [play_bind] at h
  cases first : f.play v with
  | mk outcome v' =>
  rw [first] at h
  cases outcome with
  | ok x => exact ⟨x, ⟨v, congrArg Prod.fst first⟩, v', h⟩
  | error e => contradiction

theorem Gives.of_bind_error {e : Failure} (h : (f >>= k).Gives (.error e)) :
    f.Gives (.error e) ∨ ∃ x, f.Gives (.ok x) ∧ (k x).Gives (.error e) := by
  obtain ⟨v, h⟩ := h
  rw [play_bind] at h
  cases first : f.play v with
  | mk outcome v' =>
  rw [first] at h
  cases outcome with
  | ok x => exact .inr ⟨x, ⟨v, congrArg Prod.fst first⟩, v', h⟩
  | error e' =>
    obtain rfl := Except.error.inj h
    exact .inl ⟨v, congrArg Prod.fst first⟩

theorem Gives.of_pure {x : α} {outcome : Except Failure α}
    (h : (pure x : Outline V α).Gives outcome) : outcome = .ok x := by
  obtain ⟨v, h⟩ := h
  exact h.symm

theorem Gives.of_lift {e outcome : Except Failure α} (h : (liftM e : Outline V α).Gives outcome) :
    outcome = e := by
  obtain ⟨v, h⟩ := h
  cases e <;> exact h.symm

theorem Gives.of_return_ok {value : α → β} {y : β}
    (h : (do return value (← f) : Outline V β).Gives (.ok y)) : ∃ x, f.Gives (.ok x) ∧ y = value x := by
  obtain ⟨x, first, last⟩ := h.of_bind_ok
  exact ⟨x, first, Except.ok.inj last.of_pure⟩

theorem Gives.of_return_error {value : α → β} {e : Failure}
    (h : (do return value (← f) : Outline V β).Gives (.error e)) : f.Gives (.error e) := by
  rcases h.of_bind_error with first | ⟨x, _, last⟩
  · exact first
  · cases last.of_pure

end Outline

namespace Act

variable {σ α β : Type}

theorem Gives.of_bind_ok {a : Act σ α} {k : α → Act σ β} {y : β} (h : (a >>= k).Gives (.ok y)) :
    ∃ x, a.Gives (.ok x) ∧ (k x).Gives (.ok y) := Outline.Gives.of_bind_ok (V := Journal σ) h

theorem Gives.of_pure {x : α} {outcome : Except Failure α}
    (h : (pure x : Act σ α).Gives outcome) : outcome = .ok x :=
  Outline.Gives.of_pure (V := Journal σ) h

end Act

section

variable {σ V : Type} {view : σ → V} {c : Config} {entries left : Entries}
  {outcome : Except Failure StageResult}

theorem Stage.gives_declared {d : Declaration} {act : Config → Entries → Act σ StageResult}
    (h : (Stage.declared d act).Gives c entries ⟨outcome, left⟩) :
    left = entries ∧ (act c entries).Gives outcome := by
  obtain ⟨j, h⟩ := h
  obtain ⟨gives, same⟩ := Work.mk.inj h
  exact ⟨same.symm, j, gives⟩

theorem Stage.Follows.gives {s : Stage σ} {f : Outline V StageResult}
    (h : s.Follows view c entries f) (gives : s.Gives c entries ⟨outcome, left⟩) :
    left = entries ∧ f.Gives outcome := by
  obtain ⟨j, gives⟩ := gives
  obtain ⟨same, follows⟩ := h j
  rw [gives] at same follows
  exact ⟨same, view j.world, (congrArg Prod.fst follows).symm⟩

end

namespace Runner

variable {r : Runner} {argv : List String} {script : Script} {f : Failure}

def categoryOf (r : Runner) : Script → Category
  | .refuses _ => .undefined
  | .plays stdout stderr _ => r.patterns.categorize
      ((Forwarded.ofStream stdout).lines ++ (Forwarded.ofStream stderr).lines)

theorem category_of_failure? (failed : r.failure? argv script = some f) (command : f.IsCommand) :
    f.category = r.categoryOf script := by
  unfold failure? perform at failed
  obtain ⟨executable, arguments, exitCode, category, same⟩ := command
  cases script with
  | refuses text =>
    obtain rfl := Option.some.inj failed
    rfl
  | plays stdout stderr exitCode =>
    dsimp only at failed
    split at failed
    · obtain rfl := Option.some.inj failed
      contradiction
    · split at failed
      · contradiction
      · obtain rfl := Option.some.inj failed
        rfl

theorem gives_attempt (h : (r.attempt argv).Gives (.error f)) :
    ∃ script, r.failure? argv script = some f := by
  obtain ⟨p, h⟩ := h
  rw [play_attempt] at h
  refine ⟨p.scripts.headD .silent, ?_⟩
  cases failed : r.failure? argv (p.scripts.headD .silent) with
  | none =>
    rw [failed] at h
    contradiction
  | some cause =>
    rw [failed] at h
    rw [Except.error.inj h]

theorem gives_behind_attempt {fault : Fault}
    (h : ((r.attempt argv).behind fault).Gives (.error f)) :
    f.IsUnread ∨ ∃ cause : Failure, cause.IsCommand ∧ f = .of fault cause := by
  obtain ⟨p, h⟩ := h
  rw [Outline.play_behind] at h
  cases outcome : ((r.attempt argv).play p).1 with
  | ok _ =>
    rw [outcome] at h
    contradiction
  | error cause =>
    rw [outcome] at h
    obtain rfl := Except.error.inj h
    obtain ⟨script, failed⟩ := gives_attempt ⟨p, outcome⟩
    rcases failure?_cases failed with command | ⟨text, rfl⟩
    · exact .inr ⟨cause, command, Failure.behind_of_isCommand fault command⟩
    · exact .inl ⟨text, rfl⟩

end Runner

namespace Execution

variable {r : Runner} {c : Config} {argv : List String} {f : Failure}

def testsText : String := "The execution of the Bruno tests failed, see the log for details."

theorem afterFailure_of_isCommand {cause : Failure} (h : cause.IsCommand) :
    afterFailure c cause = if failsOnError c then .error (.of (.testsFailed cause.category) cause)
      else .ok ⟨true, some cause.message⟩ := by
  obtain ⟨executable, arguments, exitCode, category, same⟩ := h
  have own : cause.category = category := congrArg Fault.category same
  unfold afterFailure
  rw [same, own]

def bare : Config := Config.standard.set .runOptions ([] : List String)

theorem gives_client (h : (client r c argv).Gives (.error f)) :
    f.IsUnread ∨ ∃ script command, r.failure? argv script = some command ∧ command.IsCommand ∧
      command.Wraps .execution command.category testsText f := by
  rcases h.of_bind_error with first | ⟨ending, first, last⟩
  · obtain ⟨p, first⟩ := first
    contradiction
  obtain ⟨p, first⟩ := first
  rw [Outline.play_outcome] at first
  obtain rfl := Except.ok.inj first
  cases outcome : ((r.attempt argv).play p).1 with
  | ok _ =>
    rw [outcome] at last
    cases last.of_pure
  | error cause =>
    rw [outcome] at last
    have ended : .error f = afterFailure c cause := last.of_lift
    obtain ⟨script, failed⟩ := Runner.gives_attempt ⟨p, outcome⟩
    rcases Runner.failure?_cases failed with command | ⟨text, rfl⟩
    · refine .inr ⟨script, cause, failed, command, ?_⟩
      rw [afterFailure_of_isCommand command] at ended
      split at ended
      · obtain rfl := Except.error.inj ended
        exact ⟨rfl, rfl, cause.message_of _, rfl⟩
      · contradiction
    · obtain rfl := Except.error.inj ended
      exact .inl ⟨text, rfl⟩

/-- A stage leaves the entries as they are, and has completed if it returns. -/
theorem completed_of_gives {s : Setup} {stage : Stage World} (member : stage ∈ s.stages)
    {entries left : Entries} {result : StageResult}
    (h : stage.Gives c entries ⟨.ok result, left⟩) :
    left = entries ∧ result.status = .completed := by
  unfold Setup.stages stages at member
  simp only [List.mem_cons, List.not_mem_nil, or_false] at member
  rcases member with rfl | rfl | rfl | rfl | rfl
  · obtain ⟨same, h⟩ := (follows_logVersions _ _ _ _).gives h
    obtain ⟨_, _, rfl⟩ := h.of_return_ok
    exact ⟨same, rfl⟩
  · obtain ⟨same, h⟩ := (follows_install _ _ _ _).gives h
    obtain ⟨_, _, rfl⟩ := h.of_return_ok
    exact ⟨same, rfl⟩
  · have follows : Stage.Follows World.programs _ _ _ _ :=
      follows_resolveTemplate s.environment c entries
    obtain ⟨same, h⟩ := follows.gives h
    obtain ⟨_, _, rfl⟩ := h.of_return_ok
    exact ⟨same, rfl⟩
  · obtain ⟨same, h⟩ := Stage.gives_declared h
    obtain ⟨_, _, h⟩ := h.of_bind_ok
    obtain ⟨_, _, h⟩ := h.of_bind_ok
    obtain rfl := Except.ok.inj h.of_pure
    exact ⟨same, rfl⟩
  · obtain ⟨same, h⟩ := Stage.gives_declared h
    obtain ⟨_, _, h⟩ := h.of_bind_ok
    obtain ⟨_, _, h⟩ := h.of_bind_ok
    obtain ⟨ending, _, h⟩ := h.of_bind_ok
    refine ⟨same, ?_⟩
    cases ending with
    | ok _ =>
      obtain rfl := Except.ok.inj h.of_pure
      rfl
    | error f =>
      dsimp only at h
      split at h
      · split at h
        · obtain ⟨_, h⟩ := h
          contradiction
        · obtain ⟨_, _, h⟩ := h.of_bind_ok
          obtain rfl := Except.ok.inj h.of_pure
          rfl
      · obtain ⟨_, h⟩ := h
        contradiction

end Execution

end CollectionRun
