import CollectionRun.Proofs.Execution.Ending
import CollectionRun.Proofs.Forwarding

namespace CollectionRun

namespace Script

def Succeeds : Script → Prop
  | .refuses _ => False
  | .plays stdout stderr exitCode => (∀ text, .fault text ∉ stdout ++ stderr) ∧ exitCode = 0

def IsUnread : Script → Prop
  | .refuses _ => False
  | .plays stdout stderr _ => ∃ text, .fault text ∈ stdout ++ stderr

end Script

namespace Runner

variable {r : Runner} {argv : List String} {script : Script}

theorem faults_eq_none (stdout stderr : List Chunk) :
    (Forwarded.ofStream stdout).fault.or (Forwarded.ofStream stderr).fault = none ↔
      ∀ text, .fault text ∉ stdout ++ stderr := by
  unfold Forwarded.ofStream
  rw [Option.or_eq_none_iff, Forwarded.fault_ofChunks_eq_none, Forwarded.fault_ofChunks_eq_none,
    ← forall_and]
  simp only [List.mem_append, not_or]

theorem failure?_eq_none : r.failure? argv script = none ↔ script.Succeeds := by
  unfold failure? perform Script.Succeeds
  cases script with
  | refuses text => exact iff_of_false (Option.some_ne_none _) not_false
  | plays stdout stderr exitCode =>
    dsimp only
    rw [← faults_eq_none]
    cases (Forwarded.ofStream stdout).fault.or (Forwarded.ofStream stderr).fault with
    | some text => exact iff_of_false (Option.some_ne_none _) fun h => Option.some_ne_none _ h.1
    | none =>
      by_cases zero : exitCode = 0
      · simp [zero]
      · simp [zero]

theorem failure?_eq_system :
    (∃ text, r.failure? argv script = some ⟨.system text, []⟩) ↔ script.IsUnread := by
  unfold failure? perform Script.IsUnread
  cases script with
  | refuses text => exact iff_of_false (fun ⟨_, h⟩ => nomatch h) not_false
  | plays stdout stderr exitCode =>
    have faults := faults_eq_none stdout stderr
    dsimp only
    cases found : (Forwarded.ofStream stdout).fault.or (Forwarded.ofStream stderr).fault with
    | some text =>
      rw [found] at faults
      have unread := mt faults.mpr (Option.some_ne_none text)
      exact iff_of_true ⟨text, rfl⟩ (Classical.not_forall_not.mp unread)
    | none =>
      rw [found] at faults
      refine iff_of_false ?_ fun ⟨text, member⟩ => faults.mp rfl text member
      rintro ⟨text, same⟩
      by_cases zero : exitCode = 0
      · simp [zero] at same
      · simp [zero] at same

end Runner

namespace Execution

variable {s : Setup} {c : Config} {scripts : List Script}

/-- The output of some attempt cannot be read, and the attempts before it succeed. -/
def Unread (s : Setup) (c : Config) (scripts : List Script) : Prop :=
  ∃ n < (attempts s c).length,
    (∀ i < n, (scripts[i]?.getD .silent).Succeeds) ∧ (scripts[n]?.getD .silent).IsUnread

/-- A count of too many digits keeps the command line of the client from being written, and the
attempts before it succeed. -/
def Overlong (s : Setup) (c : Config) (scripts : List Script) : Prop :=
  (∀ i < 3, (scripts[i]?.getD .silent).Succeeds) ∧ clientCommand s c = .error .overlong

theorem failureAt_of_lt {n : Nat} (below : n < (attempts s c).length) :
    failureAt s c scripts n = s.runner.failure? (attempts s c)[n] (scripts[n]?.getD .silent) := by
  unfold failureAt
  rw [List.getElem?_eq_getElem below]
  rfl

theorem lt_of_failureAt {n : Nat} {f : Failure} (h : failureAt s c scripts n = some f) :
    n < (attempts s c).length := by
  obtain ⟨argv, listed, _⟩ := Option.bind_eq_some_iff.mp h
  exact (List.getElem?_eq_some_iff.mp listed).1

theorem passed_iff {n : Nat} (within : n ≤ (attempts s c).length) :
    Passed s c scripts n ↔ ∀ i < n, (scripts[i]?.getD .silent).Succeeds := by
  refine forall₂_congr fun i earlier => ?_
  rw [failureAt_of_lt (Nat.lt_of_lt_of_le earlier within)]
  exact Runner.failure?_eq_none

theorem length_attempts_of_error {f : Failure} (unwritten : clientCommand s c = .error f) :
    (attempts s c).length = 3 := by
  unfold attempts
  rw [unwritten]
  rfl

theorem unread_iff :
    Unread s c scripts ↔
      ∃ n text, Passed s c scripts n ∧ failureAt s c scripts n = some ⟨.system text, []⟩ := by
  constructor
  · rintro ⟨n, below, passed, unread⟩
    obtain ⟨text, failed⟩ := Runner.failure?_eq_system.mpr unread
    exact ⟨n, text, (passed_iff (Nat.le_of_lt below)).mpr passed, (failureAt_of_lt below).trans failed⟩
  · rintro ⟨n, text, passed, failed⟩
    have below := lt_of_failureAt failed
    refine ⟨n, below, (passed_iff (Nat.le_of_lt below)).mp passed, ?_⟩
    rw [failureAt_of_lt below] at failed
    exact Runner.failure?_eq_system.mp ⟨text, failed⟩

theorem overlong_iff :
    Overlong s c scripts ↔ Passed s c scripts 3 ∧ clientCommand s c = .error .overlong := by
  exact and_congr_left fun unwritten =>
    (passed_iff (Nat.le_of_eq (length_attempts_of_error unwritten).symm)).symm

theorem first_failure_unique {m n : Nat} {f g : Failure} (passed : Passed s c scripts m)
    (failed : failureAt s c scripts m = some f) (passed' : Passed s c scripts n)
    (failed' : failureAt s c scripts n = some g) : f = g := by
  rcases Nat.lt_trichotomy m n with earlier | same | later
  · have none := passed' m earlier
    rw [failed] at none
    contradiction
  · rw [same, failed'] at failed
    exact (Option.some.inj failed).symm
  · have none := passed n later
    rw [failed'] at none
    contradiction

theorem not_unread_of_command {n : Nat} {cause : Failure} (passed : Passed s c scripts n)
    (failed : failureAt s c scripts n = some cause) (command : cause.IsCommand) :
    ¬ Unread s c scripts := by
  intro unread
  obtain ⟨m, text, passed', failed'⟩ := unread_iff.mp unread
  obtain ⟨executable, arguments, exitCode, category, same⟩ := command
  rw [first_failure_unique passed failed passed' failed'] at same
  contradiction

theorem not_unread_of_passed (passed : Passed s c scripts (attempts s c).length) :
    ¬ Unread s c scripts := by
  intro unread
  obtain ⟨n, text, _, failed⟩ := unread_iff.mp unread
  have none := passed n (lt_of_failureAt failed)
  rw [failed] at none
  contradiction

theorem not_overlong_of_failure {n : Nat} {f : Failure} (failed : failureAt s c scripts n = some f) :
    ¬ Overlong s c scripts := by
  intro overlong
  obtain ⟨passed, unwritten⟩ := overlong_iff.mp overlong
  have below := lt_of_failureAt failed
  rw [length_attempts_of_error unwritten] at below
  rw [passed n below] at failed
  contradiction

theorem isStepFault_of_error {f : Failure} {sort : StepFault} (h : f.fault.sort? = some sort) :
    ∀ g, (.error f : Except Failure RunResult) = .error g → g.fault.isStepFault = true := by
  intro g same
  obtain rfl := Except.error.inj same
  unfold Fault.isStepFault
  rw [h]
  rfl

theorem Ends.foreign_or {attempted : List (List String)} {outcome : Except Failure RunResult}
    (h : Ends s c scripts attempted outcome) :
    (Unread s c scripts ∧ ¬ Overlong s c scripts ∧ ∃ text, outcome = .error ⟨.system text, []⟩) ∨
      (Overlong s c scripts ∧ ¬ Unread s c scripts ∧ outcome = .error .overlong) ∨
      (¬ Unread s c scripts ∧ ¬ Overlong s c scripts ∧
        ∀ f, outcome = .error f → f.fault.isStepFault = true) := by
  cases h with
  | tool passed tool failed command wraps =>
    have read := not_unread_of_command passed failed command
    have short := not_overlong_of_failure failed
    exact .inr (.inr ⟨read, short, isStepFault_of_error wraps.sort⟩)
  | installation passed failed command wraps =>
    have read := not_unread_of_command passed failed command
    have short := not_overlong_of_failure failed
    exact .inr (.inr ⟨read, short, isStepFault_of_error wraps.sort⟩)
  | @options f passed unresolved sort =>
    have command : clientCommand s c = .error f := bind_eq_error_iff.mpr (.inl unresolved)
    rw [← length_attempts_of_error command] at passed
    refine .inr (.inr ⟨not_unread_of_passed passed, ?_, isStepFault_of_error sort⟩)
    rintro ⟨-, unwritten⟩
    obtain rfl := Except.error.inj (command.symm.trans unwritten)
    contradiction
  | overlong passed unwritten long =>
    have overlong := overlong_iff.mpr ⟨passed, unwritten⟩
    rw [← length_attempts_of_error unwritten] at passed
    exact .inr (.inl ⟨overlong, not_unread_of_passed passed, rfl⟩)
  | tests passed failed command strict wraps =>
    have read := not_unread_of_command passed failed command
    have short := not_overlong_of_failure failed
    exact .inr (.inr ⟨read, short, isStepFault_of_error wraps.sort⟩)
  | tolerated passed failed command lenient =>
    have read := not_unread_of_command passed failed command
    exact .inr (.inr ⟨read, not_overlong_of_failure failed, fun _ ended => by cases ended⟩)
  | unread passed failed =>
    have unread := unread_iff.mpr ⟨_, _, passed, failed⟩
    exact .inl ⟨unread, not_overlong_of_failure failed, _, rfl⟩
  | passed passed whole =>
    rw [← whole] at passed
    refine .inr (.inr ⟨not_unread_of_passed passed, ?_, fun _ ended => by cases ended⟩)
    rintro ⟨-, unwritten⟩
    rw [length_attempts_of_error unwritten] at whole
    contradiction

/-- The run gives a report that says it succeeded, or is fatal with one that says it did not. -/
def Reported (outcome : Except Failure Report) : Prop :=
  (∃ report, outcome = .ok report ∧ report.succeeded = true) ∨
    ∃ report cause, outcome = .error (.fatal report cause) ∧ report.succeeded = false

def unreported (j : Journal World) : Journal World :=
  { j with world := { j.world with report := {} } }

theorem outcome_report (s : Setup) (c : Config) (j : Journal World) :
    ((report s c).play j).1 =
      let ended := (resultUnder s (.timing :: .reporting :: s.observers) c).play (unreported j)
      match ended.1 with
      | .ok _ => .ok { ended.2.world.report with succeeded := true }
      | .error f =>
        if f.fault.isStepFault then
          .error (.fatal { ended.2.world.report with category := f.category } f)
        else .error f := by
  unfold report unreported
  simp only [Act.play_bind, Act.play_change, Act.play_outcome]
  generalize (resultUnder s (.timing :: .reporting :: s.observers) c).play _ = ended
  obtain ⟨r, j'⟩ := ended
  cases r with
  | ok result => rfl
  | error f =>
    by_cases own : f.fault.isStepFault
    · simp only [own, if_true]
      rfl
    · simp only [own]
      rfl

theorem quiet_reporters {V : Type} (view : World → V)
    (timed : ∀ w timed, view { w with timed } = view w)
    (recorded : ∀ w stage status,
      view { w with report := w.report.record stage status } = view w) :
    ∀ o ∈ [Observer.timing, .reporting], o.Quiet view := by
  intro o member
  rcases List.mem_cons.mp member with rfl | member
  · exact Observer.quiet_timing timed
  · obtain rfl := List.mem_singleton.mp member
    exact Observer.quiet_reporting recorded

/-- A reported run comes to a report unless the output of a program cannot be read or a count has
too many digits for the command line of the client; then that failure leaves it. -/
theorem report_reported_iff (r : Runner) (env : Environment) (c : Config) (j : Journal World) :
    let s : Setup := { runner := r, environment := env }
    let scripts := j.world.scripts
    (Reported ((report s c).play j).1 ↔ ¬ Unread s c scripts ∧ ¬ Overlong s c scripts) ∧
      (Unread s c scripts → ∃ text, ((report s c).play j).1 = .error ⟨.system text, []⟩) ∧
      (Overlong s c scripts → ((report s c).play j).1 = .error .overlong ∧ ¬ c.Writable) := by
  intro s scripts
  have quiet := quiet_reporters World.programs (fun _ _ => rfl) fun _ _ _ => rfl
  have quietly := quiet_reporters (fun w => w.report.succeeded) (fun _ _ => rfl)
    fun _ _ _ => rfl
  obtain ⟨attempted, _, ends⟩ := resultUnder_ends s c (unreported j) quiet
  have unsuccessful := keeps_resultUnder (fun _ _ _ => rfl) s c quietly (unreported j)
  have outcome := outcome_report s c j
  generalize (resultUnder s [.timing, .reporting] c).play (unreported j) = ended at *
  obtain ⟨result, j'⟩ := ended
  have foreign {f : Failure} (own : f.fault.isStepFault = false) (same : result = .error f) :
      ((report s c).play j).1 = .error f ∧ ¬ Reported ((report s c).play j).1 := by
    rw [outcome, same]
    dsimp only
    rw [if_neg (Bool.eq_false_iff.mp own)]
    refine ⟨rfl, ?_⟩
    rintro (⟨report, ended, _⟩ | ⟨report, cause, ended, _⟩)
    · cases ended
    · cases ended
      contradiction
  rcases ends.foreign_or with ⟨unread, short, text, same⟩ | ⟨overlong, read, same⟩ |
      ⟨read, short, own⟩
  · obtain ⟨ended, unreported⟩ := foreign rfl same
    exact ⟨iff_of_false unreported fun h => h.1 unread, fun _ => ⟨text, ended⟩,
      fun overlong => absurd overlong short⟩
  · obtain ⟨ended, unreported⟩ := foreign rfl same
    refine ⟨iff_of_false unreported fun h => h.2 overlong, fun unread => absurd unread read,
      fun _ => ⟨ended, ?_⟩⟩
    rcases clientCommand_eq_error overlong.2 with ⟨-, sort, -⟩ | ⟨-, long⟩
    · cases sort
    · exact long
  · refine ⟨iff_of_true ?_ ⟨read, short⟩, fun unread => absurd unread read,
      fun overlong => absurd overlong short⟩
    cases result with
    | ok _ => exact .inl ⟨_, outcome, rfl⟩
    | error f =>
      have step : f.fault.isStepFault = true := own f rfl
      dsimp only at outcome
      rw [if_pos step] at outcome
      exact .inr ⟨_, f, outcome, unsuccessful⟩

theorem not_reported_of_unread_tool :
    ¬ Reported ((report {} .standard).play
      ⟨[], { scripts := [.plays [.fault "boom"] [] 0] }⟩).1 := by
  rintro (⟨report, ended, _⟩ | ⟨report, cause, ended, _⟩)
  · cases ended
  · cases ended

end Execution

end CollectionRun
