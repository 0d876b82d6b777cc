import CollectionRun.Proofs.CommandLine.Counts
import CollectionRun.Proofs.CommandLine.Loading
import CollectionRun.Proofs.Execution.Reported

namespace CollectionRun

namespace Execution

variable {s : Setup} {c : Config} {scripts : List Script}

def runOptions (c : Config) : List String := c.get .runOptions

/-- The tools and the installation succeed, the run options can be resolved, and the client
succeeds or its failures pass. -/
structure Succeeds (s : Setup) (c : Config) (scripts : List Script) : Prop where
  installed : ∀ i < 3, (scripts[i]?.getD .silent).Succeeds
  resolved : ∀ source ∈ runOptions c,
    RunOptions.Resolves (c.templateContext (some ∘ s.environment.lookup)) source
  tested : (scripts[3]?.getD Script.silent).Succeeds ∨ failsOnError c = false

theorem not_unread_of_forall (read : ∀ script ∈ scripts, ¬ script.IsUnread) :
    ¬ Unread s c scripts := by
  rintro ⟨n, -, -, unread⟩
  cases found : scripts[n]? with
  | none =>
    rw [found] at unread
    obtain ⟨text, member⟩ := unread
    cases member
  | some script =>
    rw [found] at unread
    exact read script (List.mem_of_getElem? found) unread

theorem not_overlong_of_writable (writable : c.Writable) : ¬ Overlong s c scripts := by
  rintro ⟨-, unwritten⟩
  rcases clientCommand_eq_error unwritten with ⟨-, sort, -⟩ | ⟨-, long⟩
  · contradiction
  · exact long writable

theorem three_le_length_attempts : 3 ≤ (attempts s c).length := by
  unfold attempts
  exact Nat.le_add_left 3 _

theorem three_lt_length_attempts_iff (writable : c.Writable) : 3 < (attempts s c).length ↔
    ∀ source ∈ runOptions c,
      RunOptions.Resolves (c.templateContext (some ∘ s.environment.lookup)) source := by
  obtain ⟨flags, shown⟩ := c.flagWords_of_writable writable
  rw [← RunOptions.exists_resolveAll_iff]
  unfold attempts clientCommand RunOptions.resolve runOptions
  rw [shown]
  cases RunOptions.resolveAll (c.templateContext (some ∘ s.environment.lookup))
      (c.get .runOptions) with
  | ok options => exact iff_of_true (Nat.lt_succ_self 3) ⟨options, rfl⟩
  | error f => exact iff_of_false (Nat.lt_irrefl 3) nofun

theorem failureAt_eq_none_iff {n : Nat} (below : n < (attempts s c).length) :
    failureAt s c scripts n = none ↔ (scripts[n]?.getD .silent).Succeeds := by
  rw [failureAt_of_lt below, Runner.failure?_eq_none]

theorem passed_three_iff :
    Passed s c scripts 3 ↔ ∀ i < 3, (scripts[i]?.getD .silent).Succeeds :=
  forall₂_congr fun _ below =>
    failureAt_eq_none_iff (Nat.lt_of_lt_of_le below three_le_length_attempts)

theorem not_succeeds_of_failureAt {n : Nat} {f : Failure} (failed : failureAt s c scripts n = some f)
    (below : n < 3) : ¬ Succeeds s c scripts := by
  intro succeeds
  have passed : Passed s c scripts 3 := passed_three_iff.mpr succeeds.installed
  have none := passed n below
  rw [failed] at none
  contradiction

theorem Ends.ok_iff {attempted : List (List String)} {outcome : Except Failure RunResult}
    (h : Ends s c scripts attempted outcome) (read : ¬ Unread s c scripts)
    (writable : c.Writable) : (∃ r, outcome = .ok r) ↔ Succeeds s c scripts := by
  cases h with
  | tool passed tool failed =>
    refine iff_of_false nofun (not_succeeds_of_failureAt failed ?_)
    simp only [List.mem_cons, Prod.mk.injEq, List.not_mem_nil, or_false] at tool
    omega
  | installation passed failed =>
    exact iff_of_false nofun (not_succeeds_of_failureAt failed (by decide))
  | options passed unresolved =>
    refine iff_of_false nofun fun succeeds => ?_
    obtain ⟨options, resolved⟩ := RunOptions.exists_resolveAll_iff.mpr succeeds.resolved
    cases unresolved.symm.trans resolved
  | overlong passed unwritten long => exact absurd writable long
  | tests passed failed command strict =>
    refine iff_of_false nofun fun succeeds => ?_
    rcases succeeds.tested with tested | lenient
    · rw [← failureAt_eq_none_iff (lt_of_failureAt failed), failed] at tested
      contradiction
    · rw [strict] at lenient
      contradiction
  | tolerated passed failed command lenient =>
    have resolved := (three_lt_length_attempts_iff writable).mp (lt_of_failureAt failed)
    exact iff_of_true ⟨_, rfl⟩ ⟨passed_three_iff.mp passed, resolved, .inr lenient⟩
  | unread passed failed =>
    -- Also where failures of the client pass, a read that fails ends the run without a result.
    exact absurd (unread_iff.mpr ⟨_, _, passed, failed⟩) read
  | passed passed whole =>
    have fourth : 3 < (attempts s c).length := by
      rw [whole]
      decide
    have tested := (failureAt_eq_none_iff fourth).mp (passed 3 (by decide))
    have installed := passed_three_iff.mp fun i below => passed i (Nat.lt_succ_of_lt below)
    have resolved := (three_lt_length_attempts_iff writable).mp fourth
    exact iff_of_true ⟨_, rfl⟩ ⟨installed, resolved, .inl tested⟩

/-- Where every output can be read and every count written, a reported run has a report if it
succeeds, and is fatal else. -/
theorem report_cases (r : Runner) (env : Environment) (c : Config) (j : Journal World)
    (read : ∀ script ∈ j.world.scripts, ¬ script.IsUnread) (writable : c.Writable) :
    let s : Setup := { runner := r, environment := env }
    (Succeeds s c j.world.scripts ∧ ∃ ended, ((report s c).play j).1 = .ok ended) ∨
      ¬ Succeeds s c j.world.scripts ∧
        ∃ ended cause, ((report s c).play j).1 = .error (.fatal ended cause) := by
  intro s
  have unread : ¬ Unread s c j.world.scripts := not_unread_of_forall read
  have quiet := quiet_reporters World.programs (fun _ _ => rfl) fun _ _ _ => rfl
  obtain ⟨attempted, -, ends⟩ := resultUnder_ends s c (unreported j) quiet
  have result := ends.ok_iff unread writable
  have outcome := outcome_report s c j
  generalize (resultUnder s [.timing, .reporting] c).play (unreported j) = ended at *
  obtain ⟨r', j'⟩ := ended
  rcases ends.foreign_or with ⟨fails, -⟩ | ⟨overlong, -⟩ | ⟨-, -, own⟩
  · exact absurd fails unread
  · exact absurd overlong (not_overlong_of_writable writable)
  cases r' with
  | ok r' => exact .inl ⟨result.mp ⟨r', rfl⟩, _, outcome⟩
  | error f =>
    refine .inr ⟨fun succeeds => ?_, ?_⟩
    · obtain ⟨_, same⟩ := result.mpr succeeds
      contradiction
    · have step : f.fault.isStepFault = true := own f rfl
      dsimp only at outcome
      rw [if_pos step] at outcome
      exact ⟨_, f, outcome⟩

end Execution

namespace CommandLine

variable {site : Site} {a : Arguments} {c : Config}

theorem Arguments.loadable_iff_of_parsed {files : Files} {environment : Environment}
    (parsed : ∀ envFile, readEnvFile files = .ok envFile →
      (Surroundings.mk environment envFile).Parsed) :
    a.Loadable files environment ↔ a.config ≠ .bare ∧ ∀ ps, a.parameters files = .ok ps →
      ∃ envFile, readEnvFile files = .ok envFile := by
  constructor
  · rintro ⟨set, read⟩
    refine ⟨set, fun ps found => ?_⟩
    obtain ⟨envFile, decoded, -⟩ := read ps found
    exact ⟨envFile, decoded⟩
  · rintro ⟨set, decodes⟩
    refine ⟨set, fun ps found => ?_⟩
    obtain ⟨envFile, decoded⟩ := decodes ps found
    exact ⟨envFile, decoded, parsed envFile decoded⟩

theorem launches_of_error {failure : Failure}
    (failed : a.loadConfig site.files site.environment = .error failure) :
    (perform site a).2.world.launches = [] := by
  unfold perform
  simp only [failed]
  split <;> rfl

theorem outcome_perform_of_ok (loaded : a.loadConfig site.files site.environment = .ok c)
    (read : ∀ script ∈ site.scripts, ¬ script.IsUnread) :
    (Execution.Succeeds { environment := site.environment } c site.scripts ∧
        (perform site a).1 = .ok 0) ∨
      ¬ Execution.Succeeds { environment := site.environment } c site.scripts ∧
        (perform site a).1 = .ok 1 := by
  let start : Journal World := ⟨site.eventsOfLoading a, { scripts := site.scripts }⟩
  unfold perform
  simp only [loaded]
  rcases Execution.report_cases {} site.environment c start read
      (Arguments.writable_of_loadConfig loaded) with
    ⟨succeeds, report, ended⟩ | ⟨fails, report, cause, ended⟩
  · obtain ⟨j, same⟩ : ∃ j, (Execution.report { environment := site.environment } c).play start =
        (.ok report, j) := ⟨_, Prod.ext ended rfl⟩
    rw [same]
    exact .inl ⟨succeeds, rfl⟩
  · obtain ⟨j, same⟩ : ∃ j, (Execution.report { environment := site.environment } c).play start =
        (.error (.fatal report cause), j) := ⟨_, Prod.ext ended rfl⟩
    rw [same]
    exact .inr ⟨fails, rfl⟩

section

variable {time : String} {argv : List String} (reads : Arguments.read argv = .run a)

include reads

theorem run_eq : run time site argv = (perform site a).1.map fun exitCode =>
    { exitCode
      stderr := logLines time a.verbose (perform site a).2.events
      launches := (perform site a).2.world.launches } := by
  unfold run
  rw [reads]
  dsimp only
  obtain ⟨r, j⟩ := perform site a
  cases r <;> rfl

theorem exists_run_iff :
    (∃ ended, run time site argv = .ok ended) ↔ ∃ code, (perform site a).1 = .ok code := by
  rw [run_eq reads]
  cases (perform site a).1 with
  | ok code => exact iff_of_true ⟨_, rfl⟩ ⟨code, rfl⟩
  | error failure => exact iff_of_false nofun nofun

theorem perform_of_run {ended : Ended} (ran : run time site argv = .ok ended) :
    (perform site a).1 = .ok ended.exitCode ∧
      ended.launches = (perform site a).2.world.launches := by
  rw [run_eq reads] at ran
  cases outcome : (perform site a).1 with
  | ok code =>
    rw [outcome] at ran
    obtain rfl := Except.ok.inj ran
    exact ⟨rfl, rfl⟩
  | error failure =>
    rw [outcome] at ran
    contradiction

end

/-- Where the text of every list is JSON and every output can be read, a run ends with an exit code
unless the environment file is read and is not UTF-8, or the separator is given for the file of
parameters, where that is no path (`Arguments.given`). The code is 0 if the configuration is loaded
and the run succeeds, and 1 else; nothing is launched without a configuration. -/
theorem exitCode_run (time : String) (site : Site) (argv : List String) (a : Arguments)
    (reads : Arguments.read argv = .run a)
    (parsed : ∀ envFile, readEnvFile site.files = .ok envFile →
      (Surroundings.mk site.environment envFile).Parsed)
    (read : ∀ script ∈ site.scripts, ¬ script.IsUnread) :
    ((∃ ended, run time site argv = .ok ended) ↔
      a.config ≠ .bare ∧ ∀ ps, a.parameters site.files = .ok ps →
        ∃ envFile, readEnvFile site.files = .ok envFile) ∧
      ∀ ended, run time site argv = .ok ended →
        (ended.exitCode = 0 ∨ ended.exitCode = 1) ∧
        (ended.exitCode = 0 ↔ ∃ c, a.loadConfig site.files site.environment = .ok c ∧
          Execution.Succeeds { environment := site.environment } c site.scripts) ∧
        ∀ failure, a.loadConfig site.files site.environment = .error failure →
          ended.exitCode = 1 ∧ ended.launches = [] := by
  rw [← Arguments.loadable_iff_of_parsed parsed, Arguments.loadable_iff, exists_run_iff reads]
  cases loaded : a.loadConfig site.files site.environment with
  | ok c =>
    have outcome := outcome_perform_of_ok loaded read
    constructor
    · refine iff_of_true ?_ nofun
      rcases outcome with ⟨-, zero⟩ | ⟨-, one⟩
      · exact ⟨0, zero⟩
      · exact ⟨1, one⟩
    · intro ended ran
      have code := (perform_of_run reads ran).1
      rcases outcome with ⟨succeeds, zero⟩ | ⟨fails, one⟩
      · have zero : 0 = ended.exitCode := Except.ok.inj (zero.symm.trans code)
        exact ⟨.inl zero.symm, iff_of_true zero.symm ⟨c, rfl, succeeds⟩, nofun⟩
      · have one : 1 = ended.exitCode := Except.ok.inj (one.symm.trans code)
        refine ⟨.inr one.symm, iff_of_false (fun zero => ?_) ?_, nofun⟩
        · omega
        · rintro ⟨c', ⟨⟩, succeeds⟩
          exact fails succeeds
  | error failure =>
    have outcome := outcome_perform_of_error loaded
    constructor
    · constructor
      · rintro ⟨code, ended⟩ f ⟨⟩
        rw [outcome] at ended
        by_contra below
        rw [if_neg below] at ended
        contradiction
      · intro step
        rw [if_pos (step failure rfl)] at outcome
        exact ⟨1, outcome⟩
    · intro ended ran
      obtain ⟨code, launches⟩ := perform_of_run reads ran
      have one : ended.exitCode = 1 := by
        rw [outcome] at code
        split at code
        · exact (Except.ok.inj code).symm
        · contradiction
      rw [launches_of_error loaded] at launches
      refine ⟨.inr one, iff_of_false ?_ ?_, fun _ _ => ⟨one, launches⟩⟩
      · omega
      · rintro ⟨c, loads, -⟩
        contradiction

theorem exitCode_run_of_refused_installation :
    let site : Site :=
      ⟨.empty, fun _ => .error .missing, [.silent, .silent, .refuses "no such file"]⟩
    Arguments.read [] = .run {} ∧
      (∀ envFile, readEnvFile site.files = .ok envFile →
        (Surroundings.mk site.environment envFile).Parsed) ∧
      (∀ script ∈ site.scripts, ¬ script.IsUnread) ∧
      ∃ ended, run "" site [] = .ok ended ∧ ended.exitCode = 1 := by
  intro site
  have reads : Arguments.read [] = .run {} := rfl
  have parsed : ∀ envFile, readEnvFile site.files = .ok envFile →
      (Surroundings.mk site.environment envFile).Parsed := by
    rintro _ ⟨⟩ source s ⟨-, text, ⟨before, n, after, split, -⟩, -⟩
    cases source with
    | _ => exact List.append_ne_nil_of_right_ne_nil before (List.cons_ne_nil _ after) split.symm
  have read : ∀ script ∈ site.scripts, ¬ script.IsUnread := by
    simp [site, Script.silent, Script.IsUnread]
  obtain ⟨ends, codes⟩ := exitCode_run "" site [] {} reads parsed read
  obtain ⟨ended, ran⟩ := ends.mpr ⟨nofun, fun _ _ => ⟨none, rfl⟩⟩
  obtain ⟨zero_or_one, zero, -⟩ := codes ended ran
  refine ⟨reads, parsed, read, ended, ran, zero_or_one.resolve_left fun code => ?_⟩
  obtain ⟨c, -, succeeds⟩ := zero.mp code
  exact succeeds.installed 2 (by decide)

theorem escapes_of_undecodable_file :
    let files : Files := fun path =>
      if path = envFilePath then .ok [0x41, 0x3d, 0xff] else .error .missing
    Arguments.read [] = .run {} ∧ (∀ envFile, readEnvFile files ≠ .ok envFile) ∧
      run "" ⟨.empty, files, []⟩ [] = .error ⟨.utf8 ⟨2, [0xff], .startOctet⟩, []⟩ := by
  intro files
  refine ⟨rfl, fun envFile same => ?_, rfl⟩
  have undecoded : readEnvFile files = .error ⟨.utf8 ⟨2, [0xff], .startOctet⟩, []⟩ := rfl
  cases undecoded.symm.trans same

end CommandLine

end CollectionRun
