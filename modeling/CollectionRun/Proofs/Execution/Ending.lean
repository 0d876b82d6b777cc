import CollectionRun.Proofs.Execution.Course
import CollectionRun.Proofs.Flags
import CollectionRun.Proofs.RunOptions

/-! A run attempts its command lines one after the other (`attempts`), and the first that fails
ends it. `Ends` lists the ways in which that happens, with the outcome of each; `result_ends`
says that there are no others. -/

namespace CollectionRun

namespace Failure

/-- A failure of a command: its program could not be launched, or it exited with another code
than zero. -/
def IsCommand (f : Failure) : Prop :=
  ∃ executable arguments exitCode category,
    f.fault = .command executable arguments exitCode category

theorem behind_of_isCommand {f : Failure} (fault : Fault) (h : f.IsCommand) :
    f.behind fault = of fault f := by
  obtain ⟨executable, arguments, exitCode, category, same⟩ := h
  rw [behind, same]

end Failure

theorem Runner.failure?_cases {r : Runner} {argv : List String} {script : Script} {f : Failure}
    (h : r.failure? argv script = some f) : f.IsCommand ∨ ∃ text, f = ⟨.system text, []⟩ := by
  unfold failure? perform at h
  cases script with
  | refuses text =>
    obtain rfl := Option.some.inj h
    exact .inl ⟨_, _, _, _, rfl⟩
  | plays stdout stderr exitCode =>
    dsimp only at h
    split at h
    · obtain rfl := Option.some.inj h
      exact .inr ⟨_, rfl⟩
    · split at h
      · contradiction
      · obtain rfl := Option.some.inj h
        exact .inl ⟨_, _, _, _, rfl⟩

namespace Execution

def installCommand (c : Config) : String := c.get .installCommand

theorem installWords_eq_splitOn (c : Config) :
    installWords c = ((installCommand c).toList.splitOn ' ').map String.ofList ++
      ["--prefix=~/.npm-global"] := by
  unfold installWords
  rw [Text.splitAt_eq_splitOn]
  rfl

theorem intercalate_installWords (c : Config) :
    " ".intercalate (installWords c) = installCommand c ++ " " ++ "--prefix=~/.npm-global" := by
  rw [installWords_eq_splitOn,
    String.intercalate_append_of_ne_nil (by simp) (List.cons_ne_nil _ _),
    String.intercalate_singleton]
  congr 2
  apply String.toList_inj.mp
  rw [String.toList_intercalate, List.map_map]
  have same : String.toList ∘ String.ofList = id := funext fun _ => String.toList_ofList
  rw [same, List.map_id]
  exact List.intercalate_splitOn ' '

/-- The path of the client below `home`: a slash at the end of `home` is not doubled. -/
inductive ClientPath : (home path : String) → Prop
  | unset : ClientPath "" "/.npm-global/bin/bru"
  | closed (folder : String) : ClientPath (folder ++ "/") (folder ++ "/.npm-global/bin/bru")
  | plain {home : String} (set : home ≠ "") (h : ∀ folder, home ≠ folder ++ "/") :
    ClientPath home (home ++ "/.npm-global/bin/bru")

theorem clientPath_binaryPath (home : String) : ClientPath home (binaryPath home) := by
  unfold binaryPath
  by_cases unset : home = ""
  · subst unset
    exact .unset
  · have set : home.isEmpty = false := by simpa using unset
    rw [if_neg (by simp [set])]
    by_cases closed : home.toList.getLast? = some '/'
    · obtain ⟨folder, ended⟩ := List.getLast?_eq_some_iff.mp closed
      have same : home = String.ofList folder ++ "/" := by
        apply String.toList_inj.mp
        rw [String.toList_append, String.toList_ofList]
        exact ended
      rw [if_pos closed, same, String.append_assoc]
      exact .closed _
    · rw [if_neg closed, String.append_assoc]
      refine .plain unset fun folder same => closed ?_
      rw [same, String.toList_append]
      exact List.getLast?_concat

def clientCommand (s : Setup) (c : Config) : Except Failure (List String) := do
  let options ← RunOptions.resolve c (some ∘ s.environment.lookup)
  let flags ← c.flagWords
  return clientWords s options flags

/-- The command lines of a run in which nothing fails, as far as they can be told. -/
def attempts (s : Setup) (c : Config) : List (List String) :=
  ["node", "--version"] :: ["npm", "--version"] :: installWords c ::
    match clientCommand s c with
    | .ok argv => [argv]
    | .error _ => []

def failureAt (s : Setup) (c : Config) (scripts : List Script) (n : Nat) : Option Failure :=
  (attempts s c)[n]?.bind fun argv => s.runner.failure? argv (scripts[n]?.getD .silent)

def Passed (s : Setup) (c : Config) (scripts : List Script) (n : Nat) : Prop :=
  ∀ i < n, failureAt s c scripts i = none

/-- How a run ends when programs behave as scripts say: what it has attempted, and the outcome. A
count of too many digits can be written neither into a run option nor as a flag. -/
inductive Ends (s : Setup) (c : Config) (scripts : List Script) :
    List (List String) → Except Failure RunResult → Prop
  | tool {n : Nat} {name : String} {cause f : Failure} (passed : Passed s c scripts n)
      (tool : (n, name) ∈ [(0, "node"), (1, "npm")])
      (failed : failureAt s c scripts n = some cause) (command : cause.IsCommand)
      (wraps : cause.Wraps .infrastructure .infrastructure
        ("error logging " ++ name ++ " version") f) :
    Ends s c scripts ((attempts s c).take (n + 1)) (.error f)
  | installation {cause f : Failure} (passed : Passed s c scripts 2)
      (failed : failureAt s c scripts 2 = some cause) (command : cause.IsCommand)
      (wraps : cause.Wraps .configuration .configuration "error installing Bruno CLI" f) :
    Ends s c scripts ((attempts s c).take 3) (.error f)
  | options {f : Failure} (passed : Passed s c scripts 3)
      (unresolved : RunOptions.resolve c (some ∘ s.environment.lookup) = .error f)
      (sort : f.fault.sort? = some .configuration) (category : f.category = .configuration) :
    Ends s c scripts ((attempts s c).take 3) (.error f)
  | overlong (passed : Passed s c scripts 3) (unwritten : clientCommand s c = .error .overlong)
      (long : ¬ c.Writable) : Ends s c scripts ((attempts s c).take 3) (.error .overlong)
  | tests {cause f : Failure} (passed : Passed s c scripts 3)
      (failed : failureAt s c scripts 3 = some cause) (command : cause.IsCommand)
      (strict : failsOnError c = true)
      (wraps : cause.Wraps .execution cause.category
        "The execution of the Bruno tests failed, see the log for details." f) :
    Ends s c scripts ((attempts s c).take 4) (.error f)
  | tolerated {cause : Failure} (passed : Passed s c scripts 3)
      (failed : failureAt s c scripts 3 = some cause) (command : cause.IsCommand)
      (lenient : failsOnError c = false) :
    Ends s c scripts ((attempts s c).take 4) (.ok ⟨true, some cause.message⟩)
  | unread {n : Nat} {text : String} (passed : Passed s c scripts n)
      (failed : failureAt s c scripts n = some ⟨.system text, []⟩) :
    Ends s c scripts ((attempts s c).take (n + 1)) (.error ⟨.system text, []⟩)
  | passed (passed : Passed s c scripts 4) (whole : (attempts s c).length = 4) :
    Ends s c scripts (attempts s c) (.ok ⟨true, none⟩)

variable {s : Setup} {c : Config} {scripts : List Script}

theorem Ends.isPrefix {attempted : List (List String)} {outcome : Except Failure RunResult}
    (h : Ends s c scripts attempted outcome) : attempted <+: attempts s c := by
  cases h with
  | passed => exact List.prefix_rfl
  | _ => exact List.take_prefix _ _

theorem Passed.succ {n : Nat} (h : Passed s c scripts n) (last : failureAt s c scripts n = none) :
    Passed s c scripts (n + 1) := by
  intro i below
  rcases Nat.lt_succ_iff_lt_or_eq.mp below with earlier | same
  · exact h i earlier
  · rw [same]
    exact last

theorem failureAt_cases {n : Nat} {f : Failure} (h : failureAt s c scripts n = some f) :
    f.IsCommand ∨ ∃ text, f = ⟨.system text, []⟩ := by
  obtain ⟨argv, _, failed⟩ := Option.bind_eq_some_iff.mp h
  exact s.runner.failure?_cases failed

theorem resolve_eq_error {getenv : String → Option String} {f : Failure}
    (h : RunOptions.resolve c getenv = .error f) :
    f.fault.sort? = some .configuration ∧ f.category = .configuration ∨
      f = .overlong ∧ ¬ c.Writable := by
  obtain ⟨_, _, _, _, _, fails⟩ := RunOptions.resolveAll_eq_error_iff.mp h
  exact fails.configuration

theorem clientCommand_eq_error {f : Failure} (h : clientCommand s c = .error f) :
    (RunOptions.resolve c (some ∘ s.environment.lookup) = .error f ∧
      f.fault.sort? = some .configuration ∧ f.category = .configuration) ∨
      f = .overlong ∧ ¬ c.Writable := by
  rcases bind_eq_error_iff.mp h with unresolved | ⟨options, -, h⟩
  · rcases resolve_eq_error unresolved with own | overlong
    · exact .inl ⟨unresolved, own⟩
    · exact .inr overlong
  · rcases bind_eq_error_iff.mp h with unwritten | ⟨flags, -, never⟩
    · exact .inr (Config.flagWords_eq_error unwritten)
    · cases never

def reached (s : Setup) (c : Config) (p : Programs) (n : Nat) : Programs :=
  ⟨p.scripts.drop n, p.launched ++ (attempts s c).take n⟩

theorem play_attempt_at {p : Programs} {n : Nat} {argv : List String}
    (h : (attempts s c)[n]? = some argv) :
    (s.runner.attempt argv).play (reached s c p n) =
      ((match failureAt s c p.scripts n with
        | some failure => .error failure
        | none => .ok ()), reached s c p (n + 1)) := by
  rw [Runner.play_attempt]
  unfold reached failureAt
  rw [h, List.headD_eq_head?_getD, List.head?_drop, List.tail_drop, List.take_add_one, h,
    List.append_assoc]
  rfl

/-- What is left of a run ends it as it has to end, if the first `n` attempts have passed. -/
def EndsFrom (s : Setup) (c : Config) (p : Programs) (n : Nat) (f : Outline Programs RunResult) :
    Prop :=
  Passed s c p.scripts n → ∃ attempted,
    (f.play (reached s c p n)).2.launched = p.launched ++ attempted ∧
      Ends s c p.scripts attempted (f.play (reached s c p n)).1

theorem endsFrom_behind {p : Programs} {n : Nat} {argv : List String} {fault : Fault}
    {k : Unit → Outline Programs RunResult} (listed : (attempts s c)[n]? = some argv)
    (failed : ∀ cause : Failure, Passed s c p.scripts n → failureAt s c p.scripts n = some cause →
      cause.IsCommand → Ends s c p.scripts ((attempts s c).take (n + 1)) (.error (.of fault cause)))
    (rest : EndsFrom s c p (n + 1) (k ())) :
    EndsFrom s c p n ((s.runner.attempt argv).behind fault >>= k) := by
  intro passed
  rw [Outline.play_bind, Outline.play_behind, play_attempt_at listed]
  cases fails : failureAt s c p.scripts n with
  | none => exact rest (passed.succ fails)
  | some cause =>
    refine ⟨(attempts s c).take (n + 1), rfl, ?_⟩
    rcases failureAt_cases fails with command | ⟨text, rfl⟩
    · have ends := failed cause passed fails command
      rw [← Failure.behind_of_isCommand fault command] at ends
      exact ends
    · exact .unread passed fails

theorem endsFrom_client {p : Programs} {argv : List String}
    (listed : (attempts s c)[3]? = some argv) (whole : (attempts s c).length = 4) :
    EndsFrom s c p 3 (client s.runner c argv) := by
  intro passed
  have all : (attempts s c).take 4 = attempts s c := List.take_of_length_le (Nat.le_of_eq whole)
  unfold client
  rw [Outline.play_bind, Outline.play_outcome, play_attempt_at listed]
  cases fails : failureAt s c p.scripts 3 with
  | none =>
    refine ⟨(attempts s c).take 4, rfl, ?_⟩
    rw [all]
    exact .passed (passed.succ fails) whole
  | some cause =>
    refine ⟨(attempts s c).take 4, rfl, ?_⟩
    show Ends s c p.scripts _ (afterFailure c cause)
    rcases failureAt_cases fails with command | ⟨text, rfl⟩
    · have ends := command
      obtain ⟨executable, arguments, exitCode, category, same⟩ := command
      have own : cause.category = category := congrArg Fault.category same
      unfold afterFailure
      rw [same]
      cases strict : failsOnError c with
      | true =>
        exact .tests passed fails ends strict ⟨rfl, own.symm, cause.message_of _, rfl⟩
      | false => exact .tolerated passed fails ends strict
    · exact .unread passed fails

theorem endsFrom_course (p : Programs) : EndsFrom s c p 0 (course s c) := by
  -- One step for each of the first three attempts; then the options decide whether there is a
  -- fourth.
  unfold course tools
  rw [bind_assoc]
  refine endsFrom_behind rfl ?_ (endsFrom_behind rfl ?_ (endsFrom_behind rfl ?_ ?_))
  · intro cause passed failed command
    exact .tool passed (List.mem_cons_self) failed command ⟨rfl, rfl, cause.message_of _, rfl⟩
  · intro cause passed failed command
    exact .tool passed (List.mem_cons_of_mem _ List.mem_cons_self) failed command
      ⟨rfl, rfl, cause.message_of _, rfl⟩
  · intro cause passed failed command
    exact .installation passed failed command ⟨rfl, rfl, cause.message_of _, rfl⟩
  · have joined : (liftM (clientCommand s c) >>= client s.runner c) = (do
        let options ← liftM (RunOptions.resolve c (some ∘ s.environment.lookup))
        let flags ← liftM c.flagWords
        client s.runner c (clientWords s options flags)) := by
      unfold clientCommand
      cases RunOptions.resolve c (some ∘ s.environment.lookup) with
      | error f => rfl
      | ok options => cases c.flagWords <;> rfl
    rw [← joined]
    cases command : clientCommand s c with
    | ok argv =>
      have listed : attempts s c =
          [["node", "--version"], ["npm", "--version"], installWords c, argv] := by
        unfold attempts
        rw [command]
      refine endsFrom_client ?_ ?_
      · rw [listed]
        rfl
      · rw [listed]
        rfl
    | error f =>
      refine fun passed => ⟨(attempts s c).take 3, rfl, ?_⟩
      rcases clientCommand_eq_error command with ⟨unresolved, sort, category⟩ | ⟨rfl, long⟩
      · exact .options passed unresolved sort category
      · exact .overlong passed command long

theorem resultUnder_ends (s : Setup) (c : Config) {observers : List (Observer World)}
    (j : Journal World) (quiet : ∀ o ∈ observers, o.Quiet World.programs) :
    ∃ attempted,
      ((resultUnder s observers c).play j).2.world.programs.launched =
        j.world.programs.launched ++ attempted ∧
      Ends s c j.world.scripts attempted ((resultUnder s observers c).play j).1 := by
  have follows := follows_resultUnder s c quiet j
  have start : reached s c j.world.programs 0 = j.world.programs := by
    unfold reached
    rw [List.take_zero, List.append_nil, List.drop_zero]
  obtain ⟨attempted, launched, ends⟩ := endsFrom_course (s := s) (c := c) j.world.programs
    fun i below => absurd below (Nat.not_lt_zero i)
  rw [start, ← follows] at launched ends
  exact ⟨attempted, launched, ends⟩

/-- A run under observers that do not fail and launch nothing attempts its command lines up to the
first that fails, and has the outcome that `Ends` gives for it. -/
theorem result_ends (s : Setup) (c : Config) (j : Journal World)
    (quiet : ∀ o ∈ s.observers, o.Quiet World.programs) :
    (∃ attempted,
      ((result s c).play j).2.world.programs.launched =
        j.world.programs.launched ++ attempted ∧
      attempted <+: attempts s c ∧
      Ends s c j.world.scripts attempted ((result s c).play j).1) ∧
    installWords c = ((installCommand c).toList.splitOn ' ').map String.ofList ++
      ["--prefix=~/.npm-global"] ∧
    " ".intercalate (installWords c) = installCommand c ++ " " ++ "--prefix=~/.npm-global" ∧
    ClientPath (s.runner.getenv s.environment "HOME")
      (binaryPath (s.runner.getenv s.environment "HOME")) := by
  obtain ⟨attempted, launched, ends⟩ := resultUnder_ends s c j quiet
  exact ⟨⟨attempted, launched, ends.isPrefix, ends⟩, installWords_eq_splitOn c,
    intercalate_installWords c, clientPath_binaryPath _⟩

theorem result_ends_of_refused_installation :
    let observers : List (Observer World) := [.timing, .reporting, .recording "a"]
    let s : Setup := { environment := .ofList [("HOME", "/home/node/")], observers }
    let scripts : List Script := [.silent, .silent, .refuses "no such file"]
    let attempted := [["node", "--version"], ["npm", "--version"], installWords .standard]
    (∀ o ∈ s.observers, o.Quiet World.programs) ∧
    attempted <+: attempts s .standard ∧
    ∃ f, ((result s .standard).play ⟨[], { scripts }⟩).1 = .error f ∧
      f.message = "error installing Bruno CLI: running command 'npm' failed: no such file" ∧
      Ends s .standard scripts attempted (.error f) := by
  intro observers s scripts attempted
  have quiet : ∀ o ∈ s.observers, o.Quiet World.programs := by
    intro o member
    rcases List.mem_cons.mp member with rfl | member
    · exact Observer.quiet_timing fun _ _ => rfl
    rcases List.mem_cons.mp member with rfl | member
    · exact Observer.quiet_reporting fun _ _ _ => rfl
    rcases List.mem_singleton.mp member with rfl
    exact Observer.quiet_recording "a" fun _ _ => rfl
  obtain ⟨⟨launched, same, listed, ends⟩, -⟩ :=
    result_ends s .standard ⟨[], { scripts }⟩ quiet
  have all : launched = attempted := same.symm
  rw [all] at listed ends
  exact ⟨quiet, listed, _, rfl, by decide, ends⟩

theorem not_infrastructure_of_unread_tool :
    ¬ ∀ (s : Setup) (c : Config) (j : Journal World), (∀ o ∈ s.observers, o.Quiet World.programs) →
      failureAt s c j.world.scripts 0 ≠ none →
      ∃ f, ((result s c).play j).1 = .error f ∧ f.fault.sort? = some .infrastructure := by
  intro always
  let scripts : List Script := [.plays [.fault "boom"] [] 0]
  have failed : failureAt {} .standard scripts 0 ≠ none := Option.some_ne_none _
  obtain ⟨f, ended, sort⟩ := always {} .standard ⟨[], { scripts }⟩ (List.forall_mem_nil _) failed
  have unread : ((result {} .standard).play ⟨[], { scripts }⟩).1 =
      .error ⟨.system "boom", []⟩ := rfl
  obtain rfl := Except.error.inj (unread.symm.trans ended)
  contradiction

end Execution

end CollectionRun
