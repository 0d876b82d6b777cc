import CollectionRun.Proofs.Execution.Outcomes
import CollectionRun.Proofs.Execution.Reported
import CollectionRun.Proofs.Pipeline.Calls

namespace CollectionRun.Execution

/-- What the outcome of a run becomes if failures of the tests are let pass. -/
inductive Tolerates : Except Failure RunResult → Except Failure RunResult → Prop
  | returned (r : RunResult) : Tolerates (.ok r) (.ok r)
  | tests {e f : Failure} (command : e.IsCommand)
      (wraps : e.Wraps .execution e.category testsText f) :
    Tolerates (.error f) (.ok ⟨true, some e.message⟩)
  | other {f : Failure} (other : f.fault.sort? ≠ some .execution) : Tolerates (.error f) (.error f)

theorem Tolerates.of_tests {e f : Failure} {outcome : Except Failure RunResult}
    (h : Tolerates (.error f) outcome) (sort : f.fault.sort? = some .execution)
    (causes : f.causes = e.chain) : outcome = .ok ⟨true, some e.message⟩ := by
  cases h with
  | @tests e' _ command wraps =>
    have same : e'.chain = e.chain := wraps.causes.symm.trans causes
    obtain ⟨fault, rest⟩ := e
    obtain ⟨fault', rest'⟩ := e'
    obtain ⟨rfl, rfl⟩ := List.cons.inj same
    rfl
  | other other => exact absurd sort other

/-- The second outline does the same as the first, and lets failures of the tests pass. -/
def Tolerated {V : Type} (f g : Outline V RunResult) : Prop :=
  ∀ v, (g.play v).2 = (f.play v).2 ∧ Tolerates (f.play v).1 (g.play v).1

theorem tolerated_bind {V α : Type} {f : Outline V α} {k l : α → Outline V RunResult}
    (first : ∀ e, f.Gives (.error e) → e.fault.sort? ≠ some .execution)
    (rest : ∀ x, f.Gives (.ok x) → Tolerated (k x) (l x)) : Tolerated (f >>= k) (f >>= l) := by
  intro v
  rw [Outline.play_bind, Outline.play_bind]
  cases played : f.play v with
  | mk outcome v' =>
  have gives : f.Gives outcome := ⟨v, congrArg Prod.fst played⟩
  cases outcome with
  | ok x => exact rest x gives v'
  | error e => exact ⟨rfl, .other (first e gives)⟩

theorem sort_of_behind {r : Runner} {argv : List String} {fault : Fault} {f : Failure}
    (other : fault.sort? ≠ some .execution) (h : ((r.attempt argv).behind fault).Gives (.error f)) :
    f.fault.sort? ≠ some .execution := by
  rcases Runner.gives_behind_attempt h with ⟨text, rfl⟩ | ⟨cause, _, rfl⟩
  · exact nofun
  · exact other

section

variable {s : Setup} {c c' : Config}

theorem tolerated_client (strict : failsOnError c = true) (lenient : failsOnError c' = false)
    (argv : List String) : Tolerated (client s.runner c argv) (client s.runner c' argv) := by
  intro p
  unfold client
  rw [Outline.play_bind, Outline.play_bind, Outline.play_outcome, Runner.play_attempt]
  cases failed : s.runner.failure? argv (p.scripts.headD .silent) with
  | none => exact ⟨rfl, .returned ⟨true, none⟩⟩
  | some cause =>
    refine ⟨rfl, ?_⟩
    show Tolerates (afterFailure c cause) (afterFailure c' cause)
    rcases Runner.failure?_cases failed with command | ⟨text, rfl⟩
    · rw [afterFailure_of_isCommand command, afterFailure_of_isCommand command, strict, lenient]
      exact .tests command ⟨rfl, rfl, cause.message_of _, rfl⟩
    · exact .other nofun

theorem flagWords_eq_of_same (same : ∀ t, t ≠ .failOnError → c'.get t = c.get t) :
    c'.flagWords = c.flagWords := by
  unfold Config.flagWords Config.flags
  simp only [same, ne_eq, reduceCtorEq, not_false_eq_true]

theorem tolerated_course (strict : failsOnError c = true) (lenient : failsOnError c' = false)
    (same : ∀ t, t ≠ .failOnError → c'.get t = c.get t)
    (resolved : RunOptions.resolve c' (some ∘ s.environment.lookup) =
      RunOptions.resolve c (some ∘ s.environment.lookup)) :
    Tolerated (course s c) (course s c') := by
  have installed : installWords c' = installWords c := by
    unfold installWords
    rw [same .installCommand nofun]
  have flags : c'.flagWords = c.flagWords := flagWords_eq_of_same same
  unfold course tools
  rw [installed, resolved, flags]
  simp only [bind_assoc]
  refine tolerated_bind (fun e => sort_of_behind nofun) fun _ _ => ?_
  refine tolerated_bind (fun e => sort_of_behind nofun) fun _ _ => ?_
  refine tolerated_bind (fun e => sort_of_behind nofun) fun _ _ => ?_
  refine tolerated_bind (fun e unresolved => ?_) fun options _ => ?_
  · rcases resolve_eq_error unresolved.of_lift.symm with ⟨sort, -⟩ | ⟨rfl, -⟩
    · rw [sort]
      exact nofun
    · exact nofun
  refine tolerated_bind (fun e unwritten => ?_) fun flags _ => ?_
  · obtain ⟨rfl, -⟩ := Config.flagWords_eq_error unwritten.of_lift.symm
    exact nofun
  · exact tolerated_client strict lenient _

end

def calls (s : Setup) (c : Config) (j : Journal World) : List Call :=
  ((Pipeline.traced ⟨s.stages, s.observers⟩).run c .empty).run j.traced |>.2.world.calls

theorem failure_of_result_ok {s : Setup} {c : Config} {j : Journal World} {r : RunResult}
    (h : ((result s c).play j).1 = .ok r) :
    ((Pipeline.run ⟨s.stages, s.observers⟩ c).run j).1.failure = none := by
  unfold result resultUnder at h
  rw [Act.play_bind, Act.play_state] at h
  generalize (Pipeline.run ⟨s.stages, s.observers⟩ c).run j = ran at h ⊢
  obtain ⟨⟨entries, failure⟩, j'⟩ := ran
  cases failure with
  | none => rfl
  | some f => contradiction

theorem status_of_result_ok {s : Setup} {c : Config} {j : Journal World} {r : RunResult}
    (h : ((result s c).play j).1 = .ok r) :
    ((calls s c j).filterMap Call.returned?).map (·.status) = List.replicate 5 .completed := by
  have plain := Pipeline.plain_run ⟨s.stages, s.observers⟩ c .empty j
  have unfailing := failure_of_result_ok h
  rw [plain] at unfailing
  have ends := Pipeline.traced_ends ⟨s.stages, s.observers⟩ c .empty j
  have completed := Pipeline.completes_of_unfailing ends unfailing
  refine List.eq_replicate_iff.mpr ⟨?_, fun status member => ?_⟩
  · rw [List.length_map]
    exact Pipeline.length_returned completed
  · obtain ⟨result, returned, rfl⟩ := List.mem_map.mp member
    obtain ⟨stage, listed, entries, left, gives⟩ :=
      Pipeline.gives_of_returned completed result returned
    exact (completed_of_gives listed gives).2

/-- Whether failures pass decides about nothing but what becomes of a failure of the tests: the
programs are the same, and so is the outcome but for that. -/
theorem result_tolerates (s : Setup) (c c' : Config) (j : Journal World)
    (quiet : ∀ o ∈ s.observers, o.Quiet World.programs) (strict : failsOnError c = true)
    (lenient : failsOnError c' = false) (same : ∀ t, t ≠ .failOnError → c'.get t = c.get t)
    (resolved : RunOptions.resolve c' (some ∘ s.environment.lookup) =
      RunOptions.resolve c (some ∘ s.environment.lookup)) :
    let ran := (result s c).play j
    let ran' := (result s c').play j
    ran'.2.world.launches.map (·.argv) = ran.2.world.launches.map (·.argv) ∧
      Tolerates ran.1 ran'.1 ∧
      ∀ r, ran'.1 = .ok r →
        ((calls s c' j).filterMap Call.returned?).map (·.status) = List.replicate 5 .completed := by
  intro ran ran'
  have follows := follows_resultUnder s c quiet j
  have follows' := follows_resultUnder s c' quiet j
  obtain ⟨programs, tolerates⟩ := tolerated_course strict lenient same resolved j.world.programs
  rw [← follows, ← follows'] at programs tolerates
  exact ⟨congrArg Programs.launched programs, tolerates, fun r => status_of_result_ok⟩

def failingTests : List Script :=
  [.silent, .silent, .silent,
    .plays [.octets [0x54, 0x79, 0x70, 0x65, 0x45, 0x72, 0x72, 0x6F, 0x72, 0x0A]] [] 1]

theorem result_tolerates_of_type_error :
    let s : Setup := { observers := [.timing, .reporting] }
    let lenient := bare.set .failOnError false
    let j : Journal World := ⟨[], { scripts := failingTests }⟩
    let e : Failure := ⟨.command "/.npm-global/bin/bru" ["--sandbox", "safe"] (some 1) .test, []⟩
    ((∀ o ∈ s.observers, o.Quiet World.programs) ∧ failsOnError bare = true ∧
      failsOnError lenient = false ∧ (∀ t, t ≠ .failOnError → lenient.get t = bare.get t) ∧
      RunOptions.resolve lenient (some ∘ s.environment.lookup) =
        RunOptions.resolve bare (some ∘ s.environment.lookup)) ∧
      ((result s bare).play j).1 = .error (.of (.testsFailed .test) e) ∧
      ((result s lenient).play j).1 = .ok ⟨true, some e.message⟩ ∧
      e.message = "running command '/.npm-global/bin/bru' failed with exit code 1" := by
  intro s lenient j e
  have quiet := quiet_reporters World.programs (fun _ _ => rfl) fun _ _ _ => rfl
  have same : ∀ t, t ≠ .failOnError → lenient.get t = bare.get t := fun t other =>
    bare.get_set_of_ne _ (Ne.symm other)
  have failed : ((result s bare).play j).1 = .error (.of (.testsFailed .test) e) := rfl
  have tolerates := (result_tolerates s bare lenient j quiet rfl rfl same rfl).2.1
  rw [failed] at tolerates
  exact ⟨⟨quiet, rfl, rfl, same, rfl⟩, failed, tolerates.of_tests rfl rfl, by decide⟩

end CollectionRun.Execution
