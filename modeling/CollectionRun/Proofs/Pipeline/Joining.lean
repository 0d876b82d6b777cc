import CollectionRun.Proofs.Pipeline.Calls

namespace CollectionRun

variable {σ α : Type}

/-- The call where `n` stages stand before those that are called. -/
def Call.further (n : Nat) : Call → Call
  | .process place c entries work => .process (place + n) c entries work
  | call => call

/-- The journal where `n` stages, with the calls `earlier`, have gone before. -/
def Journal.resumed (n : Nat) (earlier : List Call) (j : Journal (Traced σ)) : Journal (Traced σ) :=
  ⟨j.events, ⟨j.world.world, earlier ++ j.world.calls.map (Call.further n)⟩⟩

section

variable (n : Nat) (earlier : List Call)

theorem keepsNotes_resumed : KeepsNotes (Journal.resumed (σ := σ) n earlier) := fun _ _ => rfl

theorem along_resumed (m : StateM (Journal σ) α) {call call' : α → Call}
    (same : ∀ x, call x = (call' x).further n) :
    Along (Journal.resumed n earlier) (recorded m call) (recorded m call') := by
  intro j
  obtain ⟨events, world, calls⟩ := j
  show (_, _) = (_, _)
  refine congrArg (Prod.mk (m.run ⟨events, world⟩).1) ?_
  show Journal.mk _ (Traced.mk _ (earlier ++ calls.map (Call.further n) ++ [call _])) =
    Journal.mk _ (Traced.mk _ (earlier ++ (calls ++ [call' _]).map (Call.further n)))
  rw [same, List.map_append, List.append_assoc]
  rfl

theorem Observer.along_resumed (place : Nat) (o : Observer σ) :
    (o.traced place).Along (Journal.resumed n earlier) (o.traced place) where
  before _ := CollectionRun.along_resumed _ _ _ fun _ => rfl
  after _ _ := CollectionRun.along_resumed _ _ _ fun _ => rfl
  failed _ _ := CollectionRun.along_resumed _ _ _ fun _ => rfl

theorem Stage.along_resumed (place : Nat) (s : Stage σ) :
    (s.traced (place + n)).Along (Journal.resumed n earlier) (s.traced place) where
  name := rfl
  missing _ := rfl
  process _ _ := CollectionRun.along_resumed _ _ _ fun _ => rfl

end

namespace Pipeline

variable (observers : List (Observer σ)) (xs ys : List (Stage σ)) (c : Config)

theorem runFrom_append (entries : Entries) (j : Journal σ) :
    (runFrom observers c entries (xs ++ ys)).run j =
      let first := (runFrom observers c entries xs).run j
      match first.1.failure with
      | none => (runFrom observers c first.1.entries ys).run first.2
      | some _ => first := by
  induction xs generalizing entries j with
  | nil => rfl
  | cons s rest ih =>
    cases attempt : (s.advance observers c entries).run j with
    | mk ending j' =>
    rw [List.cons_append, runFrom, runFrom, run_bind attempt, run_bind attempt]
    obtain ⟨entries', failure?⟩ := ending
    cases failure? with
    | none => exact ih entries' j'
    | some f => rfl

structure Seen (σ : Type) where
  ending : Ending
  journal : Journal σ
  calls : List Call

def seen (p : Pipeline σ) (c : Config) (start : Entries) (j : Journal σ) : Seen σ :=
  let ran := (p.traced.run c start).run j.traced
  ⟨ran.1, ran.2.plain, ran.2.world.calls⟩

/-- Two pipelines under the same observers, the second run from what the first returns. -/
def seenInTurn (start : Entries) (j : Journal σ) : Seen σ :=
  let first := seen ⟨xs, observers⟩ c start j
  match first.ending.failure with
  | none =>
    let second := seen ⟨ys, observers⟩ c first.ending.entries first.journal
    { second with calls := first.calls ++ second.calls.map (Call.further xs.length) }
  | some _ => first

theorem traced_runFrom (entries : Entries) (n : Nat) (j : Journal (Traced σ)) :
    let ran := ((traced ⟨ys, observers⟩).run c entries).run j.plain.traced
    (runFrom (observers.mapIdx Observer.traced) c entries
      (ys.mapIdx fun i => Stage.traced (i + n))).run j =
        (ran.1, ran.2.resumed n j.world.calls) := by
  have start : j.plain.traced.resumed n j.world.calls = j :=
    congrArg (fun calls => Journal.mk _ (Traced.mk _ calls)) (List.append_nil _)
  have observed := forall₂_mapIdx (fun i o => Observer.along_resumed n j.world.calls i o) observers
  have same := forall₂_mapIdx (fun i s => Stage.along_resumed n j.world.calls i s) ys
  have along := along_runFrom (keepsNotes_resumed n j.world.calls) observed same c entries
    j.plain.traced
  rwa [start] at along

theorem seen_append (start : Entries) (j : Journal σ) :
    seen ⟨xs ++ ys, observers⟩ c start j = seenInTurn observers xs ys c start j := by
  have joined := runFrom_append (observers.mapIdx Observer.traced) (xs.mapIdx Stage.traced)
    (ys.mapIdx fun i => Stage.traced (i + xs.length)) c start j.traced
  rw [← List.mapIdx_append] at joined
  unfold seenInTurn seen
  unfold run traced
  dsimp only
  rw [joined]
  generalize (runFrom _ c start (xs.mapIdx Stage.traced)).run j.traced = first
  obtain ⟨⟨entries, failure?⟩, j'⟩ := first
  cases failure? with
  | some f => rfl
  | none =>
    dsimp only
    rw [traced_runFrom]
    rfl

/-- A pipeline cut in two: the same calls, the same journal and the same end, whether that is the
entries at the end or the failure of a stage or an observer. -/
theorem run_append (start : Entries) (j : Journal σ) :
    seen ⟨xs ++ ys, observers⟩ c start j = seenInTurn observers xs ys c start j ∧
    (∀ (p : Pipeline σ) (n : Nat), p.seen c start j =
      seenInTurn p.observers (p.stages.take n) (p.stages.drop n) c start j) ∧
    ∀ (p : Pipeline σ) (entries : Entries) (j : Journal σ),
      (p.run c entries).run j = ((p.seen c entries j).ending, (p.seen c entries j).journal) := by
  refine ⟨seen_append observers xs ys c start j, fun p n => ?_, fun p => p.plain_run c⟩
  have cut := seen_append p.observers (p.stages.take n) (p.stages.drop n) c start j
  rwa [List.take_append_drop] at cut

end Pipeline

end CollectionRun
