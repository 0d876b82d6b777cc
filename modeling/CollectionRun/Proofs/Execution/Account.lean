import CollectionRun.Proofs.Execution.Outcomes
import CollectionRun.Proofs.Execution.Reported
import CollectionRun.Proofs.Pipeline.Recording

/-! The report of a run that succeeds has all stages completed. That of a run that fails has the
stages up to the one that failed, completed but for that one, and the category of the failure,
which is fixed by the stage or, for the client, by its output (`report_accounted`). -/

namespace CollectionRun.Execution

def stageNames : List String :=
  ["log_versions", "install", "resolve_template", "build_flags", "execute"]

theorem name_stages (s : Setup) : s.stages.map Stage.name = stageNames := rfl

def completedTo (n : Nat) : OrderedMap String Status :=
  ⟨(stageNames.take n).map (·, .completed)⟩

def failedAt (n : Nat) (stage : String) : OrderedMap String Status :=
  ⟨(stageNames.take n).map (·, .completed) ++ [(stage, .failed)]⟩

/-- What the failure of a stage is put down to, if the client plays `script`. -/
inductive Blame (s : Setup) (c : Config) (script : Script) : (stage : String) → Failure → Prop
  | tools {f : Failure} (sort : f.fault.sort? = some .infrastructure)
      (category : f.category = .infrastructure) : Blame s c script "log_versions" f
  | installation {f : Failure} (sort : f.fault.sort? = some .configuration)
      (category : f.category = .configuration) : Blame s c script "install" f
  | options {f : Failure} (sort : f.fault.sort? = some .configuration)
      (category : f.category = .configuration) : Blame s c script "resolve_template" f
  | tests {argv : List String} {command f : Failure}
      (written : clientCommand s c = .ok argv)
      (failed : s.runner.failure? argv script = some command)
      (isCommand : command.IsCommand)
      (wraps : command.Wraps .execution (s.runner.categoryOf script) testsText f) :
    Blame s c script "execute" f

/-- How a reported run ends when programs behave as scripts say. If observers launch nothing, the
client plays the fourth script. What is not put down to any stage leaves without a report: the
failure of a read, and that of a count with too many digits. -/
inductive Accounted (s : Setup) (c : Config) (scripts : List Script) : Except Failure Report → Prop
  | completed : Accounted s c scripts (.ok ⟨true, .undefined, completedTo 5⟩)
  | failed {n : Nat} {stage : String} {script : Script} {cause f : Failure}
      (turn : stageNames[n]? = some stage) (blame : Blame s c script stage cause)
      (played : (∀ o ∈ s.observers, o.Quiet World.programs) → script = scripts[3]?.getD .silent)
      (fatal : f.fault = .fatal ⟨false, cause.category, failedAt n stage⟩ cause.category)
      (wraps : cause.Wraps .general cause.category "step execution failed" f) :
    Accounted s c scripts (.error f)
  | unread {text : String}
      (unread : (∀ o ∈ s.observers, o.Quiet World.programs) → Unread s c scripts) :
    Accounted s c scripts (.error ⟨.system text, []⟩)
  | overlong (unwritten : clientCommand s c = .error .overlong) (long : ¬ c.Writable)
      (overlong : (∀ o ∈ s.observers, o.Quiet World.programs) → Overlong s c scripts) :
    Accounted s c scripts (.error .overlong)

variable {s : Setup} {c : Config}

theorem Blame.isStepFault {script : Script} {stage : String} {f : Failure}
    (h : Blame s c script stage f) : f.fault.isStepFault = true := by
  unfold Fault.isStepFault
  cases h with
  | tools sort | installation sort | options sort => rw [sort]; rfl
  | tests written failed isCommand wraps => rw [wraps.sort]; rfl

/-- What a stage can fail with: its own failure, or one that is none of the step's. -/
inductive Fails (s : Setup) (c : Config) (stage : String) : Failure → Prop
  | own {script : Script} {f : Failure} (blame : Blame s c script stage f) : Fails s c stage f
  | unread {text : String} : Fails s c stage ⟨.system text, []⟩
  | overlong (unwritten : clientCommand s c = .error .overlong) (long : ¬ c.Writable) :
    Fails s c stage .overlong

theorem Fails.caught {stage : String} {f : Failure} (h : Fails s c stage f) :
    f.fault.isHalt = false := by
  cases h with
  | own blame =>
    have own := blame.isStepFault
    cases halts : f.fault with
    | halt => rw [halts] at own; contradiction
    | _ => rfl
  | unread | overlong => rfl

section

variable {entries left : Entries} {f : Failure}

theorem fails_behind {argv : List String} {fault : Fault} {stage : String}
    (blame : ∀ cause, Blame s c .silent stage (.of fault cause))
    (h : ((s.runner.attempt argv).behind fault).Gives (.error f)) : Fails s c stage f := by
  rcases Runner.gives_behind_attempt h with ⟨text, rfl⟩ | ⟨cause, _, rfl⟩
  · exact .unread
  · exact .own (blame cause)

theorem fails_logVersions
    (h : (logVersions (s.runner.machine s.environment)).Gives c entries ⟨.error f, left⟩) :
    Fails s c "log_versions" f := by
  have failed := ((follows_logVersions _ _ _ _).gives h).2.of_return_error
  unfold tools at failed
  rcases failed.of_bind_error with failed | ⟨_, _, failed⟩
  · exact fails_behind (fun _ => .tools rfl rfl) failed
  · exact fails_behind (fun _ => .tools rfl rfl) failed

theorem fails_install
    (h : (install (s.runner.machine s.environment)).Gives c entries ⟨.error f, left⟩) :
    Fails s c "install" f := by
  have failed := ((follows_install _ _ _ _).gives h).2.of_return_error
  exact fails_behind (fun _ => .installation rfl rfl) failed

theorem gives_resolveTemplate {inherited : Environment} {outcome : Except Failure StageResult}
    (h : (resolveTemplate inherited : Stage World).Gives c entries ⟨outcome, left⟩) :
    (do return optionsData (← liftM (RunOptions.resolve c (some ∘ inherited.lookup))) :
      Outline Programs StageResult).Gives outcome := by
  have follows : Stage.Follows World.programs _ _ _ _ :=
    follows_resolveTemplate inherited c entries
  exact (follows.gives h).2

theorem gives_buildFlags {options : List String} {outcome : Except Failure StageResult}
    (present : entries.get? optionsKey = some (.json (.strings options)))
    (h : (buildFlags : Stage World).Gives c entries ⟨outcome, left⟩) :
    (do return commandData options (← liftM c.flagWords) :
      Outline Programs StageResult).Gives outcome := by
  have follows : Stage.Follows World.programs _ _ _ _ := follows_buildFlags c entries present
  exact (follows.gives h).2

theorem fails_resolveTemplate
    (h : (resolveTemplate s.environment : Stage World).Gives c entries ⟨.error f, left⟩) :
    Fails s c "resolve_template" f := by
  have unresolved := (gives_resolveTemplate h).of_return_error.of_lift
  rcases resolve_eq_error unresolved.symm with ⟨sort, category⟩ | ⟨rfl, long⟩
  · have blame : Blame s c .silent "resolve_template" f := .options sort category
    exact .own blame
  · exact .overlong (bind_eq_error_iff.mpr (.inl unresolved.symm)) long

theorem fails_buildFlags {options : List String}
    (present : entries.get? optionsKey = some (.json (.strings options)))
    (resolved : RunOptions.resolve c (some ∘ s.environment.lookup) = .ok options)
    (h : (buildFlags : Stage World).Gives c entries ⟨.error f, left⟩) :
    Fails s c "build_flags" f := by
  have unwritten := (gives_buildFlags present h).of_return_error.of_lift
  obtain ⟨rfl, long⟩ := Config.flagWords_eq_error unwritten.symm
  refine .overlong ?_ long
  unfold clientCommand
  rw [resolved, ← unwritten]
  rfl

theorem fails_execute {options flags : List String}
    (present : entries.get? commandKey = some (.json (.strings (options ++ flags))))
    (written : clientCommand s c = .ok (clientWords s options flags))
    (h : (execute (s.runner.machine s.environment)).Gives c entries ⟨.error f, left⟩) :
    Fails s c "execute" f := by
  have failed := ((follows_execute _ _ _ _ _ present).gives h).2.of_return_error
  rcases gives_client failed with ⟨text, rfl⟩ | ⟨script, command, failed, isCommand, wraps⟩
  · exact .unread
  · rw [Runner.category_of_failure? failed isCommand] at wraps
    have blame : Blame s c script "execute" f := .tests written failed isCommand wraps
    exact .own blame

end

theorem Blame.played {scripts : List Script} {script : Script} {stage : String} {f : Failure}
    {attempted : List (List String)} (h : Blame s c script stage f)
    (ends : Ends s c scripts attempted (.error f)) :
    Blame s c (scripts[3]?.getD .silent) stage f := by
  cases h with
  | tools sort category => exact .tools sort category
  | installation sort category => exact .installation sort category
  | options sort category => exact .options sort category
  | @tests argv _ _ written _ _ wraps =>
    have sort := wraps.sort
    cases ends with
    | tool _ _ _ _ other | installation _ _ _ other =>
      rw [other.sort] at sort
      contradiction
    | options _ _ other =>
      rw [other] at sort
      contradiction
    | overlong | unread => contradiction
    | tests passed failed command strict wraps =>
      have listed : (attempts s c)[3]? = some argv := by
        unfold attempts
        rw [written]
        rfl
      unfold failureAt at failed
      rw [listed, Option.bind_some] at failed
      rw [Runner.category_of_failure? failed command] at wraps
      exact .tests written failed command wraps

inductive Entered (s : Setup) (c : Config) : Except Failure RunResult → Report → Prop
  | completed {r : RunResult} : Entered s c (.ok r) { stages := completedTo 5 }
  | failed {n : Nat} {stage : String} {f : Failure} (turn : stageNames[n]? = some stage)
      (fails : Fails s c stage f) : Entered s c (.error f) { stages := failedAt n stage }

/-- What is left of a run is entered as it has to be, if the first `n` stages are. -/
def Enters (s : Setup) (c : Config) (n : Nat) (a : Act World RunResult) : Prop :=
  ∀ j, j.world.report = { stages := completedTo n } →
    Entered s c (a.play j).1 (a.play j).2.world.report

theorem put_completedTo {n : Nat} {stage : String} (turn : stageNames[n]? = some stage)
    (status : Status) : (completedTo n).put stage status =
      ⟨(stageNames.take n).map (·, .completed) ++ [(stage, status)]⟩ := by
  have split : stageNames = stageNames.take n ++ stage :: stageNames.drop (n + 1) := by
    obtain ⟨below, rfl⟩ := List.getElem?_eq_some_iff.mp turn
    rw [List.getElem_cons_drop, List.take_append_drop]
  have distinct : stageNames.Nodup := by decide
  rw [split] at distinct
  have fresh : stage ∉ stageNames.take n := fun member =>
    (List.nodup_append.mp distinct).2.2 stage member stage List.mem_cons_self rfl
  have names : ((stageNames.take n).map fun name => (name, Status.completed)).map (·.1) =
      stageNames.take n := by
    rw [List.map_map]
    exact List.map_id _
  rw [← names] at fresh
  unfold completedTo OrderedMap.put
  rw [OrderedMap.putIn_of_notMem fresh]

theorem completedTo_succ {n : Nat} {stage : String} (turn : stageNames[n]? = some stage) :
    (completedTo n).put stage .completed = completedTo (n + 1) := by
  rw [put_completedTo turn]
  unfold completedTo
  rw [List.take_add_one, turn, List.map_append]
  rfl

theorem enters_cons {n : Nat} {stage : Stage World} {rest : List (Stage World)}
    {observers : List (Observer World)} {entries : Entries} {k : Entries → Act World RunResult}
    (recording : Observer.Recording observers) (listed : s.stages[n]? = some stage)
    (present : stage.missing entries = [])
    (fails : ∀ f left, stage.Gives c entries ⟨.error f, left⟩ → Fails s c stage.name f)
    (completes : ∀ result, stage.Gives c entries ⟨.ok result, entries⟩ →
      Enters s c (n + 1) (Pipeline.through observers c (entries.update result.data) rest >>= k)) :
    Enters s c n (Pipeline.through observers c entries (stage :: rest) >>= k) := by
  intro j started
  have member := List.mem_of_getElem? listed
  have turn : stageNames[n]? = some stage.name := by
    rw [← name_stages s, List.getElem?_map, listed]
    rfl
  have keeps : stage.Keeps World.report c entries := keeps_stage (fun _ _ _ => rfl) member entries
  have recorded := Stage.recorded_of_advances recording keeps
    (stage.advances observers c entries j)
  rw [started] at recorded
  rw [Pipeline.through, bind_assoc, Act.play_bind, Stage.play_attempt]
  generalize (stage.advance observers c entries).run j = attempt at recorded ⊢
  obtain ⟨ending, j'⟩ := attempt
  dsimp only at recorded ⊢
  generalize ended : j'.world.report = report at recorded
  cases recorded with
  | lacking missing => exact absurd present missing
  | halted _ raised halts =>
    rw [(fails _ _ raised).caught] at halts
    contradiction
  | @raised f left _ raised =>
    have last : j'.world.report = { stages := failedAt n stage.name } := by
      rw [ended, Report.record, put_completedTo turn]
      rfl
    show Entered s c (.error f) j'.world.report
    rw [last]
    exact .failed turn (fails f left raised)
  | declined _ returned failed =>
    rw [(completed_of_gives member returned).2] at failed
    contradiction
  | @completed result left _ returned going =>
    obtain ⟨rfl, completed⟩ := completed_of_gives member returned
    refine completes result returned j' ?_
    rw [ended, completed, Report.record, completedTo_succ turn]

/-- The stages are entered in turn, each being given what the stages before it have left. -/
theorem enters_resultUnder {observers : List (Observer World)}
    (recording : Observer.Recording observers) : Enters s c 0 (resultUnder s observers c) := by
  rw [resultUnder_eq]
  unfold Setup.stages stages
  refine enters_cons recording rfl rfl (fun _ _ => fails_logVersions) fun result returned => ?_
  obtain ⟨_, _, rfl⟩ := ((follows_logVersions _ _ _ _).gives returned).2.of_return_ok
  refine enters_cons recording rfl rfl (fun _ _ => fails_install) fun result returned => ?_
  obtain ⟨_, _, rfl⟩ := ((follows_install _ _ _ _).gives returned).2.of_return_ok
  refine enters_cons recording rfl rfl (fun _ _ => fails_resolveTemplate) fun result returned => ?_
  obtain ⟨options, ofOptions, rfl⟩ := (gives_resolveTemplate returned).of_return_ok
  have resolved := ofOptions.of_lift.symm
  refine enters_cons recording rfl rfl (fun _ _ => fails_buildFlags rfl resolved)
    fun result returned => ?_
  obtain ⟨flags, ofFlags, rfl⟩ := (gives_buildFlags rfl returned).of_return_ok
  have written : clientCommand s c = .ok (clientWords s options flags) := by
    unfold clientCommand
    rw [resolved, ← ofFlags.of_lift]
    rfl
  refine enters_cons recording rfl rfl (fun _ _ => fails_execute rfl written)
    fun result returned => ?_
  obtain ⟨r, _, rfl⟩ := ((follows_execute _ _ _ _ _ rfl).gives returned).2.of_return_ok
  intro j ended
  show Entered s c (.ok r) j.world.report
  rw [ended]
  exact .completed

theorem reported_ends (s : Setup) (c : Config) (j : Journal World)
    (launchless : ∀ o ∈ s.observers, o.Quiet World.programs) :
    ∃ attempted, Ends s c j.world.scripts attempted
      ((resultUnder s (.timing :: .reporting :: s.observers) c).play (unreported j)).1 := by
  have reporters := quiet_reporters World.programs (fun _ _ => rfl) fun _ _ _ => rfl
  have quiet : ∀ o ∈ [Observer.timing, .reporting] ++ s.observers, o.Quiet World.programs :=
    List.forall_mem_append.mpr ⟨reporters, launchless⟩
  obtain ⟨attempted, _, ends⟩ := resultUnder_ends s c (unreported j) quiet
  exact ⟨attempted, ends⟩

/-- What a reported run gives, or the failure it ends with carries, is true of how it ended. -/
theorem report_accounted (s : Setup) (c : Config) (j : Journal World)
    (quiet : ∀ o ∈ s.observers, o.Quiet World.report) :
    Accounted s c j.world.scripts ((report s c).play j).1 := by
  have timing : ∀ o ∈ [Observer.timing], o.Quiet World.report :=
    List.forall_mem_singleton.mpr (Observer.quiet_timing fun _ _ => rfl)
  have entered := enters_resultUnder (s := s) (c := c)
    (Observer.recording_of_quiet timing quiet) (unreported j) rfl
  have ends := reported_ends s c j
  rw [outcome_report]
  dsimp only [List.singleton_append] at entered ⊢
  generalize (resultUnder s (.timing :: .reporting :: s.observers) c).play (unreported j) = ended
    at entered ends ⊢
  obtain ⟨outcome, j'⟩ := ended
  dsimp only at entered ends ⊢
  generalize j'.world.report = left at entered ⊢
  cases entered with
  | completed => exact .completed
  | @failed n stage f turn fails =>
    cases fails with
    | @own script _ blame =>
      dsimp only
      rw [if_pos blame.isStepFault]
      have wraps : f.Wraps .general f.category "step execution failed"
          (.fatal ⟨false, f.category, failedAt n stage⟩ f) := ⟨rfl, rfl, f.message_of _, rfl⟩
      by_cases launchless : ∀ o ∈ s.observers, o.Quiet World.programs
      · obtain ⟨attempted, ends⟩ := ends launchless
        exact .failed turn (blame.played ends) (fun _ => rfl) rfl wraps
      · exact .failed turn blame (fun quiet => absurd quiet launchless) rfl wraps
    | unread =>
      refine .unread fun launchless => ?_
      obtain ⟨attempted, ends⟩ := ends launchless
      rcases ends.foreign_or with ⟨unread, _⟩ | ⟨_, _, same⟩ | ⟨_, _, own⟩
      · exact unread
      · cases same
      · cases own _ rfl
    | overlong unwritten long =>
      refine .overlong unwritten long fun launchless => ?_
      obtain ⟨attempted, ends⟩ := ends launchless
      rcases ends.foreign_or with ⟨_, _, text, same⟩ | ⟨overlong, _⟩ | ⟨_, _, own⟩
      · cases same
      · exact overlong
      · cases own _ rfl

def refusedClient : List Script := [.silent, .silent, .silent, .refuses "no such file"]

theorem report_accounted_of_refused_client :
    let s : Setup := { observers := [.recording "a"] }
    let j : Journal World := ⟨[], { scripts := refusedClient }⟩
    let f : Failure := ⟨.fatal ⟨false, .undefined, failedAt 4 "execute"⟩ .undefined,
      [.testsFailed .undefined,
        .command "/.npm-global/bin/bru" ["--sandbox", "safe"] none .undefined,
        .system "no such file"]⟩
    (∀ o ∈ s.observers, o.Quiet World.report) ∧ ((report s bare).play j).1 = .error f ∧
      Accounted s bare refusedClient (.error f) := by
  intro s j f
  have quiet : ∀ o ∈ s.observers, o.Quiet World.report :=
    List.forall_mem_singleton.mpr (Observer.quiet_recording "a" fun _ _ => rfl)
  have ended : ((report s bare).play j).1 = .error f := rfl
  have accounted := report_accounted s bare j quiet
  rw [ended] at accounted
  exact ⟨quiet, ended, accounted⟩

end CollectionRun.Execution
