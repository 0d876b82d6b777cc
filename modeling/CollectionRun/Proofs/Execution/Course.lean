import CollectionRun.Execution.Run
import CollectionRun.Proofs.Outline

/-! The outline of a run over the programs it launches: the stages, the entries they leave to
each other and the quiet observers around them are gone, and what is left is four launches with
the run options resolved before the last (`follows_resultUnder`). -/

namespace CollectionRun

structure Programs where
  scripts : List Script
  launched : List (List String)

def World.programs (w : World) : Programs := ⟨w.scripts, w.launches.map (·.argv)⟩

namespace Observer

variable {V : Type} {view : World → V}

theorem quiet_timing (h : ∀ w timed, view { w with timed } = view w) : timing.Quiet view where
  before _ := Act.follows_note _
  after _ result := Act.Follows.pure_bind (Act.quiet_change fun w => h w _)
    (Act.Follows.pure_bind (Act.follows_note _) (Act.follows_pure result))
  failed _ _ := Act.quiet_change fun w => h w _

theorem quiet_reporting
    (h : ∀ w stage status, view { w with report := w.report.record stage status } = view w) :
    reporting.Quiet view where
  before _ := Act.quiet_change fun w => h w _ _
  after _ result := Act.Follows.pure_bind (Act.quiet_change fun w => h w _ _) (Act.follows_pure result)
  failed _ _ := Act.quiet_change fun w => h w _ _

theorem quiet_recording (label : String) (h : ∀ w notes, view { w with notes } = view w) :
    (recording label).Quiet view where
  before _ := Act.Follows.pure_bind (Act.quiet_change fun w => h w _) (Act.follows_pure _)
  after _ result := Act.Follows.pure_bind (Act.quiet_change fun w => h w _)
    (Act.Follows.pure_bind (Act.follows_pure _) (Act.follows_pure result))
  failed _ _ := Act.Follows.pure_bind (Act.quiet_change fun w => h w _) (Act.follows_pure _)

end Observer

namespace Runner

def failure? (r : Runner) (argv : List String) (script : Script) : Option Failure :=
  (r.perform (argv.headD "") argv.tail script).failure

def attempt (r : Runner) (argv : List String) : Outline Programs Unit :=
  ExceptT.mk fun p =>
    ((match r.failure? argv (p.scripts.headD .silent) with
      | some failure => .error failure
      | none => .ok ()), ⟨p.scripts.tail, p.launched ++ [argv]⟩)

theorem play_attempt (r : Runner) (argv : List String) (p : Programs) :
    (r.attempt argv).play p =
      ((match r.failure? argv (p.scripts.headD .silent) with
        | some failure => .error failure
        | none => .ok ()), ⟨p.scripts.tail, p.launched ++ [argv]⟩) := rfl

theorem follows_run (r : Runner) (executable : String) (arguments : List String) :
    Act.Follows World.programs (r.run executable arguments)
      (r.attempt (executable :: arguments)) := by
  rintro ⟨events, scripts, launches, report, timed, notes⟩
  rw [play_run, play_attempt]
  have argvs : ∀ l : Launch, (launches ++ [l]).map (·.argv) = launches.map (·.argv) ++ [l.argv] :=
    fun l => List.map_append
  cases scripts with
  | nil =>
    simp only [World.programs, World.nextScript, World.launched, argvs]
    rfl
  | cons script rest =>
    simp only [World.programs, World.nextScript, World.launched, argvs]
    rfl

end Runner

/-- What a failure becomes behind `fault`: that of a command is its cause, any other passes. -/
def Failure.behind (fault : Fault) (failure : Failure) : Failure :=
  match failure.fault with
  | .command _ _ _ _ => .of fault failure
  | _ => failure

namespace Outline

variable {V α : Type}

def behind (fault : Fault) (f : Outline V α) : Outline V α :=
  ExceptT.adapt (Failure.behind fault) f

theorem play_behind (fault : Fault) (f : Outline V α) (v : V) :
    (f.behind fault).play v = ((f.play v).1.mapError (·.behind fault), (f.play v).2) := rfl

end Outline

namespace Execution

section

variable {V α : Type} {view : World → V}

theorem follows_wrapping {fault : Fault} {a : Act World α} {f : Outline V α}
    (h : Act.Follows view a f) :
    Act.Follows view (wrapping fault a) (f.behind fault) := by
  intro j
  unfold wrapping
  rw [Outline.play_behind, ← h j, Act.play_bind, Act.play_outcome]
  obtain ⟨r, j'⟩ := a.play j
  cases r with
  | ok x => rfl
  | error failure =>
    obtain ⟨fault', causes⟩ := failure
    cases fault' <;> rfl

end

theorem textsFrom_map (index : Nat) (texts : List String) :
    textsFrom index (texts.map Json.Value.string) = .ok texts := by
  induction texts generalizing index with
  | nil => rfl
  | cons text rest ih =>
    rw [List.map_cons, textsFrom, ih]
    rfl

/-- What a failure of the client makes of the run. -/
def afterFailure (c : Config) (failure : Failure) : Except Failure RunResult :=
  match failure.fault with
  | .command _ _ _ category =>
    if failsOnError c then .error (.of (.testsFailed category) failure)
    else .ok ⟨true, some failure.message⟩
  | _ => .error failure

def tools (r : Runner) : Outline Programs Unit := do
  (r.attempt ["node", "--version"]).behind (.toolVersion "node")
  (r.attempt ["npm", "--version"]).behind (.toolVersion "npm")

def client (r : Runner) (c : Config) (argv : List String) : Outline Programs RunResult := do
  match ← (r.attempt argv).outcome with
  | .ok () => return ⟨true, none⟩
  | .error failure => afterFailure c failure

section

variable (r : Runner) (inherited : Environment) (c : Config) (entries : Entries)

theorem follows_logVersions :
    (logVersions (r.machine inherited)).Follows World.programs c entries
      (do let _ ← tools r; return {}) := by
  refine Stage.follows_declared ?_
  unfold tools
  rw [bind_assoc]
  refine (follows_wrapping (r.follows_run _ _)).bind fun _ => ?_
  exact (follows_wrapping (r.follows_run _ _)).bind fun _ => Act.follows_pure _

theorem cons_tail_installWords :
    (installWords c).headD "" :: (installWords c).tail = installWords c := by
  have nonempty : installWords c ≠ [] := List.append_ne_nil_of_right_ne_nil _ (List.cons_ne_nil _ _)
  obtain ⟨word, words, written⟩ := List.exists_cons_of_ne_nil nonempty
  rw [written]
  rfl

theorem follows_install :
    (install (r.machine inherited)).Follows World.programs c entries
      (do let _ ← (r.attempt (installWords c)).behind .installation; return {}) := by
  refine Stage.follows_declared ?_
  rw [← cons_tail_installWords c]
  exact (follows_wrapping (r.follows_run _ _)).bind fun _ => Act.follows_pure _

def optionsData (options : List String) : StageResult :=
  { data := .ofList [(optionsKey, .json (.strings options))] }

theorem follows_resolving {V : Type} {view : World → V} (getenv : String → Option String) :
    Act.Follows view (RunOptions.resolving c getenv) (liftM (RunOptions.resolve c getenv)) := by
  rw [← bind_pure (liftM (RunOptions.resolve c getenv))]
  refine (Act.follows_lift _).bind fun options => ?_
  exact Act.Follows.pure_bind (Act.follows_note _) (Act.follows_pure options)

theorem follows_resolveTemplate {V : Type} {view : World → V} :
    (resolveTemplate inherited).Follows view c entries
      (do return optionsData (← liftM (RunOptions.resolve c (some ∘ inherited.lookup)))) :=
  Stage.follows_declared
    ((follows_resolving c _).bind fun options => Act.follows_pure (optionsData options))

def commandData (options flags : List String) : StageResult :=
  { data := .ofList [(commandKey, .json (.strings (options ++ flags)))] }

theorem itemsAt_strings {key : String} {texts : List String} (fault : String → Fault)
    (present : entries.get? key = some (.json (.strings texts))) :
    itemsAt entries key fault = .ok (texts.map Json.Value.string) := by
  unfold itemsAt
  rw [present]
  rfl

theorem follows_buildFlags {V : Type} {view : World → V} {options : List String}
    (present : entries.get? optionsKey = some (.json (.strings options))) :
    buildFlags.Follows view c entries
      (do return commandData options (← liftM c.flagWords)) := by
  have items := itemsAt_strings entries .notItems present
  refine Stage.follows_declared ?_
  simp only [items, Act.lift_ok, pure_bind]
  refine (Act.follows_lift _).bind fun flags => ?_
  rw [← List.map_append]
  exact Act.follows_pure (commandData options flags)

theorem follows_execute (words : List String)
    (present : entries.get? commandKey = some (.json (.strings words))) :
    (execute (r.machine inherited)).Follows World.programs c entries (do
      let ending ← client r c (binaryPath (r.getenv inherited "HOME") :: words)
      return completedWith ending) := by
  have items := itemsAt_strings entries .notArguments present
  refine Stage.follows_declared ?_
  simp only [items, Act.lift_ok, pure_bind, textsFrom_map, client, bind_assoc]
  refine (r.follows_run _ _).outcome.bind fun ending => ?_
  cases ending with
  | ok _ => exact Act.follows_pure _
  | error failure =>
    obtain ⟨fault, causes⟩ := failure
    cases fault with
    | command executable arguments exitCode category =>
      by_cases strict : failsOnError c
      · simp only [strict, afterFailure, if_true]
        exact Act.follows_throw _
      · simp only [strict, afterFailure]
        exact Act.Follows.pure_bind (Act.follows_note _) (Act.follows_pure _)
    | _ => exact Act.follows_throw _

end

def clientWords (s : Setup) (options flags : List String) : List String :=
  binaryPath (s.runner.getenv s.environment "HOME") :: (options ++ flags)

def course (s : Setup) (c : Config) : Outline Programs RunResult := do
  tools s.runner
  (s.runner.attempt (installWords c)).behind .installation
  let options ← liftM (RunOptions.resolve c (some ∘ s.environment.lookup))
  let flags ← liftM c.flagWords
  client s.runner c (clientWords s options flags)

def resultIn (entries : Entries) : Except Failure RunResult :=
  match entries.get? resultKey with
  | some (.result r) => .ok r
  | _ => .error ⟨.missingKeys "execute" [resultKey], []⟩

theorem resultUnder_eq (s : Setup) (observers : List (Observer World)) (c : Config) :
    resultUnder s observers c = (do
      let entries ← Pipeline.through observers c .empty s.stages
      liftM (resultIn entries)) := by
  apply Act.ext
  intro j
  unfold resultUnder Pipeline.run
  rw [Act.play_bind, Act.play_bind, Pipeline.play_through, Act.play_state]
  obtain ⟨⟨entries, failure?⟩, j'⟩ := (Pipeline.runFrom observers c .empty s.stages).run j
  cases failure? with
  | some failure => rfl
  | none =>
    unfold resultIn
    cases found : entries.get? resultKey with
    | none =>
      simp only [found]
      rfl
    | some entry =>
      simp only [found]
      cases entry <;> rfl

def lastEntries (options flags : List String) : Entries :=
  (OrderedMap.empty.update (optionsData options).data).update (commandData options flags).data

theorem follows_resultUnder (s : Setup) (c : Config) {observers : List (Observer World)}
    (quiet : ∀ o ∈ observers, o.Quiet World.programs) :
    Act.Follows World.programs (resultUnder s observers c) (course s c) := by
  rw [resultUnder_eq]
  unfold Setup.stages stages course
  refine Pipeline.follows_through_cons
    (Stage.follows_attempt quiet rfl (fun _ => rfl) (follows_logVersions _ _ _ _)) fun _ => ?_
  refine Pipeline.follows_through_cons
    (Stage.follows_attempt quiet rfl (fun _ => rfl) (follows_install _ _ _ _)) fun _ => ?_
  refine Pipeline.follows_through_cons
    (Stage.follows_attempt quiet rfl (fun _ => rfl) (follows_resolveTemplate _ _ _))
    fun options => ?_
  refine Pipeline.follows_through_cons
    (Stage.follows_attempt quiet rfl (fun _ => rfl) (follows_buildFlags _ _ rfl)) fun flags => ?_
  have last := follows_execute s.runner s.environment c (lastEntries options flags)
    (options ++ flags) rfl
  rw [← bind_pure (client s.runner c (clientWords s options flags))]
  refine Pipeline.follows_through_cons
    (Stage.follows_attempt quiet rfl (fun _ => rfl) last) fun r => ?_
  exact Act.follows_pure _

section

variable {V : Type} {view : World → V}

theorem keeps_run (h : ∀ w scripts launches, view { w with scripts, launches } = view w)
    (r : Runner) (executable : String) (arguments : List String) :
    Act.Keeps view (r.run executable arguments) := by
  rintro ⟨events, scripts, launches, report, timed, notes⟩
  rw [Runner.play_run]
  cases scripts with
  | nil => exact h ⟨_, _, _, _, _⟩ _ _
  | cons script rest => exact h ⟨script :: rest, launches, report, timed, notes⟩ rest _

theorem keeps_wrapping {α : Type} {fault : Fault} {a : Act World α} (h : Act.Keeps view a) :
    Act.Keeps view (wrapping fault a) := by
  unfold wrapping
  refine h.outcome.bind fun r => ?_
  cases r with
  | ok x => exact Act.keeps_pure x
  | error failure =>
    dsimp only
    split
    · exact Act.keeps_throw _
    · exact Act.keeps_throw _

theorem keeps_execute (h : ∀ w scripts launches, view { w with scripts, launches } = view w)
    (r : Runner) (inherited : Environment) (c : Config) (entries : Entries) :
    (execute (r.machine inherited)).Keeps view c entries := by
  refine Stage.keeps_declared ?_
  refine (Act.keeps_lift _).bind fun items => (Act.keeps_lift _).bind fun command => ?_
  refine (keeps_run h r _ _).outcome.bind fun ending => ?_
  cases ending with
  | ok _ => exact Act.keeps_pure _
  | error failure =>
    dsimp only
    split
    · split
      · exact Act.keeps_throw _
      · exact (Act.keeps_note _).bind fun _ => Act.keeps_pure _
    · exact Act.keeps_throw _

theorem keeps_stage (h : ∀ w scripts launches, view { w with scripts, launches } = view w)
    {s : Setup} {c : Config} {stage : Stage World} (member : stage ∈ s.stages) (entries : Entries) :
    stage.Keeps view c entries := by
  have run := keeps_run h s.runner
  unfold Setup.stages stages at member
  simp only [List.mem_cons, List.not_mem_nil, or_false] at member
  rcases member with rfl | rfl | rfl | rfl | rfl
  · exact Stage.keeps_declared ((keeps_wrapping (run _ _)).bind fun _ =>
      (keeps_wrapping (run _ _)).bind fun _ => Act.keeps_pure _)
  · exact Stage.keeps_declared ((keeps_wrapping (run _ _)).bind fun _ => Act.keeps_pure _)
  · have resolving : Act.Keeps view (RunOptions.resolving c (some ∘ s.environment.lookup)) :=
      (Act.keeps_lift _).bind fun _ => (Act.keeps_note _).bind fun _ => Act.keeps_pure _
    exact Stage.keeps_declared (resolving.bind fun _ => Act.keeps_pure _)
  · exact Stage.keeps_declared
      ((Act.keeps_lift _).bind fun _ => (Act.keeps_lift _).bind fun _ => Act.keeps_pure _)
  · exact keeps_execute h s.runner s.environment c entries

/-- A run leaves alone what neither launches nor its observers change. -/
theorem keeps_resultUnder (h : ∀ w scripts launches, view { w with scripts, launches } = view w)
    (s : Setup) (c : Config) {observers : List (Observer World)}
    (quiet : ∀ o ∈ observers, o.Quiet view) : Act.Keeps view (resultUnder s observers c) := by
  rw [resultUnder_eq]
  exact (Pipeline.keeps_through quiet (fun _ => keeps_stage h) _).bind fun _ => Act.keeps_lift _

end

end Execution

end CollectionRun
