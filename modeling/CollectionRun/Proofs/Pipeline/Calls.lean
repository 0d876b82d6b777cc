import CollectionRun.Proofs.Pipeline.Advancing
import CollectionRun.Proofs.Pipeline.Correspondence

/-!
A traced pipeline runs as the pipeline does and writes down every call of a stage or an observer
(`plain_run`). `Stops` lists the ways in which a run ends if no observer fails, `Interrupted`
those in which an observer ends it, each with the calls made up to there; `run_calls` says that
there are no others.
-/

namespace CollectionRun

/-- A call made in a run, with what it was given and how it came out. Observers and stages are
told apart by their places. -/
inductive Call where
  | before (observer : Nat) (stage : String) (outcome : Except Failure Unit)
  | process (place : Nat) (c : Config) (entries : Entries) (work : Work)
  | after (observer : Nat) (stage : String) (result : StageResult)
      (outcome : Except Failure StageResult)
  | failed (observer : Nat) (stage : String) (failure : Failure) (outcome : Except Failure Unit)

def Call.returned? : Call → Option StageResult
  | .process _ _ _ ⟨.ok result, _⟩ => some result
  | _ => none

structure Traced (σ : Type) where
  world : σ
  calls : List Call := []

variable {σ α β : Type}

namespace Journal

def traced (j : Journal σ) : Journal (Traced σ) := ⟨j.events, ⟨j.world, []⟩⟩

def plain (j : Journal (Traced σ)) : Journal σ := ⟨j.events, j.world.world⟩

end Journal

def recorded (m : StateM (Journal σ) α) (call : α → Call) : StateM (Journal (Traced σ)) α :=
  fun j =>
    let (x, after) := m.run j.plain
    (x, ⟨after.events, ⟨after.world, j.world.calls ++ [call x]⟩⟩)

def Act.recorded (a : Act σ α) (call : Except Failure α → Call) : Act (Traced σ) α :=
  ExceptT.mk (CollectionRun.recorded a.run call)

def Observer.traced (place : Nat) (o : Observer σ) : Observer (Traced σ) where
  before stage := (o.before stage).recorded (.before place stage)
  after stage result := (o.after stage result).recorded (.after place stage result)
  failed stage failure := (o.failed stage failure).recorded (.failed place stage failure)

def Stage.traced (place : Nat) (s : Stage σ) : Stage (Traced σ) where
  label := s.label
  declaration := s.declaration
  process c entries := recorded (s.process c entries) (.process place c entries)

def Pipeline.traced (p : Pipeline σ) : Pipeline (Traced σ) :=
  ⟨p.stages.mapIdx Stage.traced, p.observers.mapIdx Observer.traced⟩

theorem keepsNotes_plain : KeepsNotes (Journal.plain (σ := σ)) := fun _ _ => rfl

theorem along_recorded (m : StateM (Journal σ) α) (call : α → Call) :
    Along Journal.plain m (recorded m call) := fun _ => rfl

theorem Observer.along_traced (place : Nat) (o : Observer σ) :
    o.Along Journal.plain (o.traced place) where
  before _ := along_recorded _ _
  after _ _ := along_recorded _ _
  failed _ _ := along_recorded _ _

theorem Stage.along_traced (place : Nat) (s : Stage σ) :
    s.Along Journal.plain (s.traced place) where
  name := rfl
  missing _ := rfl
  process _ _ := along_recorded _ _

namespace Pipeline

theorem plain_run (p : Pipeline σ) (c : Config) (start : Entries) (j : Journal σ) :
    let ran := (p.traced.run c start).run j.traced
    (p.run c start).run j = (ran.1, ran.2.plain) :=
  along_runFrom keepsNotes_plain (forall₂_mapIdx_right Observer.along_traced p.observers)
    (forall₂_mapIdx_right Stage.along_traced p.stages) c start j.traced

/-! ### Protocol -/

section

/-- The observers before a place are told, and the one in that place, which fails. -/
def toldUpTo (place : Nat) (g : Failure) (call : Nat → α → Except Failure α → Call)
    (x : Nat → α) : List Call :=
  (List.range place).map (fun i => call i (x i) (.ok (x (i + 1)))) ++ [call place (x place) (.error g)]

variable (p : Pipeline σ) (c : Config) (start : Entries)

/-- Every observer is told, in order, of what the one before it has left, and none fails. -/
def told (call : Nat → α → Except Failure α → Call) (x : Nat → α) : List Call :=
  (List.range p.observers.length).map fun i => call i (x i) (.ok (x (i + 1)))

def called (n : Nat) (s : Stage σ) (entries : Entries) (work : Work) : List Call :=
  p.told (fun i _ => .before i s.name) (fun _ => ()) ++ [.process n c entries work]

/-- The calls for a stage that returns the first of the results `x`, if no observer fails. -/
def returns (n : Nat) (s : Stage σ) (entries left : Entries) (x : Nat → StageResult) : List Call :=
  p.called c n s entries ⟨.ok (x 0), left⟩ ++ p.told (.after · s.name) x

/-- The calls for a stage that raises a failure which is no halt, if no observer fails. -/
def raises (n : Nat) (s : Stage σ) (entries left : Entries) (f : Failure) : List Call :=
  p.called c n s entries ⟨.error f, left⟩ ++ p.told (fun i _ => .failed i s.name f) (fun _ => ())

/-- The observers before a place leave of a result what is next among the results `x`. -/
def Hands (s : Stage σ) (place : Nat) (x : Nat → StageResult) : Prop :=
  ∀ i < place, ∀ o, p.observers[i]? = some o → (o.after s.name (x i)).Gives (.ok (x (i + 1)))

/-- The first stages complete: how many of them, the calls for them and the entries after them. -/
inductive Completes : Nat → List Call → Entries → Prop
  | nothing : Completes 0 [] start
  | next {n : Nat} {calls : List Call} {entries left : Entries} {s : Stage σ}
      {x : Nat → StageResult} (earlier : Completes n calls entries) (turn : p.stages[n]? = some s)
      (present : s.missing entries = []) (returned : s.Gives c entries ⟨.ok (x 0), left⟩)
      (handed : p.Hands s p.observers.length x)
      (going : (x p.observers.length).status ≠ .failed) :
    Completes (n + 1) (calls ++ p.returns c n s entries left x)
      (left.update (x p.observers.length).data)

/-- The first stages complete, and the next lacks nothing. -/
structure Reaches (n : Nat) (calls : List Call) (entries : Entries) (s : Stage σ) : Prop where
  completed : p.Completes c start n calls entries
  turn : p.stages[n]? = some s
  present : s.missing entries = []

/-- The ways in which a run ends if no observer fails. -/
inductive Stops : List Call → Ending → Prop
  | finished {calls : List Call} {entries : Entries}
      (completed : p.Completes c start p.stages.length calls entries) :
    Stops calls ⟨entries, none⟩
  | lacking {n : Nat} {calls : List Call} {entries : Entries} {s : Stage σ}
      (completed : p.Completes c start n calls entries) (turn : p.stages[n]? = some s)
      (missing : s.missing entries ≠ []) :
    Stops calls ⟨entries, some ⟨.missingKeys s.name (s.missing entries), []⟩⟩
  | raised {n : Nat} {calls : List Call} {entries left : Entries} {s : Stage σ} {f : Failure}
      (reached : p.Reaches c start n calls entries s)
      (raised : s.Gives c entries ⟨.error f, left⟩) (caught : f.fault.isHalt = false) :
    Stops (calls ++ p.raises c n s entries left f) ⟨left, some f⟩
  | halted {n : Nat} {calls : List Call} {entries left : Entries} {s : Stage σ} {f : Failure}
      (reached : p.Reaches c start n calls entries s)
      (raised : s.Gives c entries ⟨.error f, left⟩) (halts : f.fault.isHalt = true) :
    Stops (calls ++ p.called c n s entries ⟨.error f, left⟩) ⟨left, some f⟩
  | declined {n : Nat} {calls : List Call} {entries left : Entries} {s : Stage σ}
      {x : Nat → StageResult} (reached : p.Reaches c start n calls entries s)
      (returned : s.Gives c entries ⟨.ok (x 0), left⟩) (handed : p.Hands s p.observers.length x)
      (failed : (x p.observers.length).status = .failed) :
    Stops (calls ++ p.returns c n s entries left x)
      ⟨left, some ⟨.stageFailed s.name (x p.observers.length).error, []⟩⟩

/-- The ways in which an observer that fails ends a run: no call follows the one that failed. -/
inductive Interrupted : List Call → Ending → Prop
  | before {n i : Nat} {calls : List Call} {entries : Entries} {s : Stage σ} {o : Observer σ}
      {g : Failure} (reached : p.Reaches c start n calls entries s)
      (observer : p.observers[i]? = some o) (fails : (o.before s.name).Gives (.error g)) :
    Interrupted (calls ++ toldUpTo i g (fun i _ => .before i s.name) (fun _ => ()))
      ⟨entries, some g⟩
  | after {n i : Nat} {calls : List Call} {entries left : Entries} {s : Stage σ} {o : Observer σ}
      {x : Nat → StageResult} {g : Failure} (reached : p.Reaches c start n calls entries s)
      (returned : s.Gives c entries ⟨.ok (x 0), left⟩) (handed : p.Hands s i x)
      (observer : p.observers[i]? = some o) (fails : (o.after s.name (x i)).Gives (.error g)) :
    Interrupted (calls ++ p.called c n s entries ⟨.ok (x 0), left⟩ ++ toldUpTo i g (.after · s.name) x)
      ⟨left, some g⟩
  | failed {n i : Nat} {calls : List Call} {entries left : Entries} {s : Stage σ} {o : Observer σ}
      {f g : Failure} (reached : p.Reaches c start n calls entries s)
      (raised : s.Gives c entries ⟨.error f, left⟩) (caught : f.fault.isHalt = false)
      (observer : p.observers[i]? = some o) (fails : (o.failed s.name f).Gives (.error g)) :
    Interrupted (calls ++ p.called c n s entries ⟨.error f, left⟩ ++
      toldUpTo i g (fun i _ => .failed i s.name f) (fun _ => ())) ⟨left, some g⟩

end

theorem gives_of_recorded {a : Act σ α} {call : Except Failure α → Call}
    {outcome : Except Failure α} {j j' : Journal (Traced σ)}
    (h : (a.recorded call).play j = (outcome, j')) :
    a.Gives outcome ∧ j'.world.calls = j.world.calls ++ [call outcome] := by
  obtain ⟨rfl, rfl⟩ := Prod.mk.inj h
  exact ⟨⟨j.plain, rfl⟩, rfl⟩

section

variable {observers : List (Observer σ)} {what : Observer σ → α → Act σ α}

/-- What telling observers comes to, with the calls made. -/
inductive Telling (observers : List (Observer σ)) (what : Observer σ → α → Act σ α)
    (call : Nat → α → Except Failure α → Call) (x : Nat → α) : Except Failure α → List Call → Prop
  | all (each : ∀ i < observers.length, ∀ o, observers[i]? = some o →
      (what o (x i)).Gives (.ok (x (i + 1)))) :
    Telling observers what call x (.ok (x observers.length))
      ((List.range observers.length).map fun i => call i (x i) (.ok (x (i + 1))))
  | upTo {i : Nat} {o : Observer σ} {g : Failure}
      (each : ∀ k < i, ∀ o, observers[k]? = some o → (what o (x k)).Gives (.ok (x (k + 1))))
      (listed : observers[i]? = some o) (fails : (what o (x i)).Gives (.error g)) :
    Telling observers what call x (.error g) (toldUpTo i g call x)

def preceded (first : α) (x : Nat → α) : Nat → α
  | 0 => first
  | i + 1 => x i

theorem Telling.cons {o : Observer σ} {call : Nat → α → Except Failure α → Call} {first : α}
    {x : Nat → α} {outcome : Except Failure α} {calls : List Call}
    (gives : (what o first).Gives (.ok (x 0)))
    (h : Telling observers what (fun i => call (i + 1)) x outcome calls) :
    Telling (o :: observers) what call (preceded first x) outcome
      (call 0 first (.ok (x 0)) :: calls) := by
  have shifted (n : Nat) : call 0 first (.ok (x 0)) ::
      (List.range n).map (fun i => call (i + 1) (x i) (.ok (x (i + 1)))) =
        (List.range (n + 1)).map fun i =>
          call i (preceded first x i) (.ok (preceded first x (i + 1))) := by
    rw [List.range_succ_eq_map, List.map_cons, List.map_map]
    rfl
  have each {n : Nat} (later : ∀ i < n, ∀ o, observers[i]? = some o →
      (what o (x i)).Gives (.ok (x (i + 1)))) : ∀ i < n + 1, ∀ o', (o :: observers)[i]? = some o' →
        (what o' (preceded first x i)).Gives (.ok (preceded first x (i + 1))) := by
    intro i below o' listed
    cases i with
    | zero =>
      obtain rfl := Option.some.inj listed
      exact gives
    | succ i => exact later i (Nat.lt_of_succ_lt_succ below) o' listed
  cases h with
  | all later =>
    rw [shifted]
    exact .all (each later)
  | @upTo i o' g later listed fails =>
    unfold toldUpTo
    rw [← List.cons_append, shifted]
    exact .upTo (i := i + 1) (each later) listed fails

theorem telling {what' : Observer (Traced σ) → α → Act (Traced σ) α} (place : Nat → Nat)
    (call : Nat → α → Except Failure α → Call)
    (same : ∀ i o x, what' (o.traced (place i)) x = (what o x).recorded (call i x)) {first : α}
    {outcome : Except Failure α} {j j' : Journal (Traced σ)}
    (h : (Observer.tell (observers.mapIdx fun i => Observer.traced (place i)) what' first).play j =
      (outcome, j')) :
    ∃ x calls, x 0 = first ∧ j'.world.calls = j.world.calls ++ calls ∧
      Telling observers what call x outcome calls := by
  induction observers generalizing place call first j with
  | nil =>
    obtain ⟨rfl, rfl⟩ := Prod.mk.inj h
    refine ⟨fun _ => first, [], rfl, (List.append_nil _).symm, .all fun _ below => ?_⟩
    exact absurd below (Nat.not_lt_zero _)
  | cons o rest ih =>
    rw [List.mapIdx_cons, Observer.tell, Act.play_bind, same] at h
    cases told : ((what o first).recorded (call 0 first)).play j with
    | mk outcome₁ j₁ =>
    obtain ⟨gives, added⟩ := gives_of_recorded told
    rw [told] at h
    cases outcome₁ with
    | error g =>
      obtain ⟨rfl, rfl⟩ := Prod.mk.inj h
      refine ⟨fun _ => first, _, rfl, added, .upTo (i := 0) ?_ rfl gives⟩
      exact fun _ below => absurd below (Nat.not_lt_zero _)
    | ok second =>
      obtain ⟨x, calls, rfl, later, tells⟩ := ih _ _ (fun i o => same (i + 1) o) h
      refine ⟨preceded first x, _, rfl, ?_, tells.cons gives⟩
      rw [later, added, List.append_assoc]
      rfl

variable {p : Pipeline σ} {c : Config} {start : Entries}
  {what' : Observer (Traced σ) → α → Act (Traced σ) α} {j j' : Journal (Traced σ)} {first last : α}

theorem calls_of_told (call : Nat → α → Except Failure α → Call)
    (same : ∀ i o x, what' (o.traced i) x = (what o x).recorded (call i x))
    (h : (Observer.tell p.traced.observers what' first).play j = (.ok last, j')) :
    ∃ x, x 0 = first ∧ x p.observers.length = last ∧
      (∀ i < p.observers.length, ∀ o, p.observers[i]? = some o →
        (what o (x i)).Gives (.ok (x (i + 1)))) ∧
      j'.world.calls = j.world.calls ++ p.told call x := by
  obtain ⟨x, calls, start, added, tells⟩ := telling id call same h
  cases tells with
  | all each => exact ⟨x, start, rfl, each, added⟩

theorem calls_of_untold (call : Nat → α → Except Failure α → Call)
    (same : ∀ i o x, what' (o.traced i) x = (what o x).recorded (call i x)) {g : Failure}
    (h : (Observer.tell p.traced.observers what' first).play j = (.error g, j')) :
    ∃ x i o, x 0 = first ∧
      (∀ k < i, ∀ o, p.observers[k]? = some o → (what o (x k)).Gives (.ok (x (k + 1)))) ∧
      p.observers[i]? = some o ∧ (what o (x i)).Gives (.error g) ∧
      j'.world.calls = j.world.calls ++ toldUpTo i g call x := by
  obtain ⟨x, calls, start, added, tells⟩ := telling id call same h
  cases tells with
  | upTo each listed fails => exact ⟨x, _, _, start, each, listed, fails, added⟩

end

/-! ### Attempts -/

section

variable {p : Pipeline σ} {c : Config} {start : Entries} {j j' : Journal (Traced σ)} {n : Nat}
  {calls : List Call} {entries entries' : Entries} {s : Stage σ}

theorem calls_of_works {work : Work}
    (works : (s.traced n).Works p.traced.observers c entries j work j') :
    s.Gives c entries work ∧ j'.world.calls = j.world.calls ++ p.called c n s entries work := by
  obtain ⟨-, j₁, before, process⟩ := works
  obtain ⟨_, -, -, -, told⟩ := calls_of_told (fun i _ => .before i s.name) (fun _ _ _ => rfl) before
  obtain ⟨rfl, rfl⟩ := Prod.mk.inj process
  refine ⟨⟨j₁.plain, rfl⟩, ?_⟩
  show j₁.world.calls ++ [_] = _
  rw [told, List.append_assoc]
  rfl

theorem traced_turn {done later : List (Stage (Traced σ))} {s' : Stage (Traced σ)}
    (split : p.traced.stages = done ++ s' :: later) :
    ∃ s, p.stages[done.length]? = some s ∧ s' = s.traced done.length := by
  have listed : (p.stages.mapIdx Stage.traced)[done.length]? = some s' := by
    show p.traced.stages[done.length]? = some s'
    rw [split, List.getElem?_append_right (Nat.le_refl _), Nat.sub_self]
    rfl
  rw [List.getElem?_mapIdx] at listed
  obtain ⟨s, turn, same⟩ := Option.map_eq_some_iff.mp listed
  exact ⟨s, turn, same.symm⟩

theorem completes_of_advances (holds : p.Completes c start n j.world.calls entries)
    (turn : p.stages[n]? = some s)
    (h : (s.traced n).Advances p.traced.observers c entries j ⟨entries', none⟩ j') :
    p.Completes c start (n + 1) j'.world.calls entries' := by
  cases h with
  | completed works after going =>
    obtain ⟨gives, added⟩ := calls_of_works works
    obtain ⟨x, rfl, rfl, handed, told⟩ :=
      calls_of_told (fun i => .after i s.name) (fun _ _ _ => rfl) after
    rw [told, added, List.append_assoc]
    exact .next holds turn works.present gives handed going

theorem ends_of_advances (holds : p.Completes c start n j.world.calls entries)
    (turn : p.stages[n]? = some s) {f : Failure}
    (h : (s.traced n).Advances p.traced.observers c entries j ⟨entries', some f⟩ j') :
    p.Stops c start j'.world.calls ⟨entries', some f⟩ ∨
      p.Interrupted c start j'.world.calls ⟨entries', some f⟩ := by
  cases h with
  | lacking missing => exact .inl (.lacking holds turn missing)
  | heldUp present before =>
    obtain ⟨_, i, o, -, -, observer, fails, told⟩ :=
      calls_of_untold (fun i _ => .before i s.name) (fun _ _ _ => rfl) before
    rw [told]
    exact .inr (.before ⟨holds, turn, present⟩ observer fails)
  | halted works halts =>
    obtain ⟨gives, added⟩ := calls_of_works works
    rw [added]
    exact .inl (.halted ⟨holds, turn, works.present⟩ gives halts)
  | raised works caught failed =>
    obtain ⟨gives, added⟩ := calls_of_works works
    obtain ⟨_, -, -, -, told⟩ :=
      calls_of_told (fun i _ => .failed i s.name _) (fun _ _ _ => rfl) failed
    rw [told]
    dsimp only
    rw [added, List.append_assoc]
    exact .inl (.raised ⟨holds, turn, works.present⟩ gives caught)
  | raisedUntold works caught failed =>
    obtain ⟨gives, added⟩ := calls_of_works works
    obtain ⟨_, i, o, -, -, observer, fails, told⟩ :=
      calls_of_untold (fun i _ => .failed i s.name _) (fun _ _ _ => rfl) failed
    rw [told]
    dsimp only
    rw [added]
    exact .inr (.failed ⟨holds, turn, works.present⟩ gives caught observer fails)
  | returnedUntold works after =>
    obtain ⟨gives, added⟩ := calls_of_works works
    obtain ⟨x, i, o, rfl, handed, observer, fails, told⟩ :=
      calls_of_untold (fun i => .after i s.name) (fun _ _ _ => rfl) after
    rw [told, added]
    exact .inr (.after ⟨holds, turn, works.present⟩ gives handed observer fails)
  | declined works after failed =>
    obtain ⟨gives, added⟩ := calls_of_works works
    obtain ⟨x, rfl, rfl, handed, told⟩ :=
      calls_of_told (fun i => .after i s.name) (fun _ _ _ => rfl) after
    rw [told, added, List.append_assoc]
    exact .inl (.declined ⟨holds, turn, works.present⟩ gives handed failed)

end

/-- A run makes the calls of a way to stop, unless an observer interrupts it. -/
theorem traced_ends (p : Pipeline σ) (c : Config) (start : Entries) (j : Journal σ) :
    let ran := (p.traced.run c start).run j.traced
    p.Stops c start ran.2.world.calls ran.1 ∨ p.Interrupted c start ran.2.world.calls ran.1 := by
  intro ran
  -- The calls made so far are those of the stages done, and these have completed.
  let Holds (done : List (Stage (Traced σ))) (entries : Entries) (j : Journal (Traced σ)) : Prop :=
    p.Completes c start done.length j.world.calls entries
  have step : ∀ done s' later entries j entries' j', p.traced.stages = done ++ s' :: later →
      Holds done entries j → s'.Advances p.traced.observers c entries j ⟨entries', none⟩ j' →
      Holds (done ++ [s']) entries' j' := by
    intro done s' later entries j entries' j' split holds advances
    obtain ⟨s, turn, rfl⟩ := traced_turn split
    show p.Completes c start (done ++ [_]).length _ _
    rw [List.length_append]
    exact completes_of_advances holds turn advances
  have first : Holds [] start j.traced := .nothing
  rcases runFrom_cases Holds first step with
    ⟨ended, completed⟩ | ⟨done, s', later, entries, j', left, f, split, holds, fails, ended⟩
  · have whole : p.traced.stages.length = p.stages.length := List.length_mapIdx
    have all : p.Completes c start p.stages.length ran.2.world.calls ran.1.entries :=
      whole ▸ completed
    have same : ran.1 = ⟨ran.1.entries, none⟩ := congrArg (Ending.mk ran.1.entries) ended
    rw [same]
    exact .inl (.finished all)
  · obtain ⟨s, turn, rfl⟩ := traced_turn split
    have same : ran.1 = ⟨left, some f⟩ := ended
    rw [same]
    exact ends_of_advances holds turn fails

section

variable {p : Pipeline σ} {c : Config} {start entries left : Entries} {n : Nat} {calls : List Call}

theorem filterMap_told {call : Nat → α → Except Failure α → Call}
    (other : ∀ i x outcome, (call i x outcome).returned? = none) (x : Nat → α) :
    (p.told call x).filterMap Call.returned? = [] := by
  unfold told
  rw [List.filterMap_eq_nil_iff]
  intro made member
  obtain ⟨i, _, rfl⟩ := List.mem_map.mp member
  exact other i _ _

theorem filterMap_returns (s : Stage σ) (x : Nat → StageResult) :
    (p.returns c n s entries left x).filterMap Call.returned? = [x 0] := by
  unfold returns called
  rw [List.filterMap_append, List.filterMap_append, filterMap_told fun _ _ _ => rfl,
    filterMap_told fun _ _ _ => rfl]
  rfl

theorem length_returned (completed : p.Completes c start n calls entries) :
    (calls.filterMap Call.returned?).length = n := by
  induction completed with
  | nothing => rfl
  | next earlier turn present returned handed going ih =>
    rw [List.filterMap_append, filterMap_returns, List.length_append, ih]
    rfl

theorem completes_of_unfailing {ending : Ending}
    (ends : p.Stops c start calls ending ∨ p.Interrupted c start calls ending)
    (unfailing : ending.failure = none) :
    p.Completes c start p.stages.length calls ending.entries := by
  rcases ends with stops | interrupted
  · cases stops with
    | finished completed => exact completed
    | _ => contradiction
  · cases interrupted <;> contradiction

theorem gives_of_returned (completed : p.Completes c start n calls entries) :
    ∀ result ∈ calls.filterMap Call.returned?,
      ∃ s ∈ p.stages, ∃ entries left, s.Gives c entries ⟨.ok result, left⟩ := by
  induction completed with
  | nothing => exact fun _ member => absurd member List.not_mem_nil
  | next earlier turn present returned handed going ih =>
    intro result member
    rw [List.filterMap_append, filterMap_returns, List.mem_append] at member
    rcases member with before | now
    · exact ih result before
    · obtain rfl := List.mem_singleton.mp now
      exact ⟨_, List.mem_of_getElem? turn, _, _, returned⟩

variable {s : Stage σ} {x : Nat → StageResult} {work : Work} {k : Nat}

end

end Pipeline

/-! ### Entries -/

/-- The entries are changed by nothing but the data of results. -/
def Stage.Leaves (s : Stage σ) (c : Config) : Prop :=
  ∀ entries work, s.Gives c entries work → work.entries = entries

/-- Results go on as they come. -/
def Observer.Leaves (o : Observer σ) : Prop :=
  ∀ stage result handed, (o.after stage result).Gives (.ok handed) → handed = result

def merged (entries : Entries) (results : List StageResult) : Entries :=
  results.foldl (fun entries result => entries.update result.data) entries

namespace Pipeline

section

variable {p : Pipeline σ} {c : Config} {start entries : Entries} {n : Nat} {calls : List Call}
  (leave : ∀ s ∈ p.stages, s.Leaves c) (pass : ∀ o ∈ p.observers, o.Leaves)

include pass in
theorem Hands.same {s : Stage σ} {x : Nat → StageResult} {k : Nat} (handed : p.Hands s k x)
    (below : k ≤ p.observers.length) : x k = x 0 := by
  induction k with
  | zero => rfl
  | succ k ih =>
    have listed := List.getElem?_eq_getElem (l := p.observers) (i := k) below
    have gives := handed k (Nat.lt_succ_self k) _ listed
    rw [pass _ (List.getElem_mem _) _ _ _ gives]
    exact ih (fun i early => handed i (Nat.lt_succ_of_lt early)) (Nat.le_of_succ_le below)

include leave pass

end

end Pipeline

end CollectionRun
