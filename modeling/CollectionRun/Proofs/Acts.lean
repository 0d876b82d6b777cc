import CollectionRun.World

namespace CollectionRun

theorem run_bind {σ α β : Type} {m : StateM σ α} {k : α → StateM σ β} {s s' : σ} {x : α}
    (h : m.run s = (x, s')) : (m >>= k).run s = (k x).run s' := by
  show (match m.run s with | (x, s') => (k x).run s') = _
  rw [h]

namespace Act

variable {σ α β : Type}

@[simp] theorem play_note (events : List Event) (j : Journal σ) :
    (note events).play j = (.ok (), { j with events := j.events ++ events }) := rfl

@[simp] theorem play_change (f : σ → σ) (j : Journal σ) :
    (change f).play j = (.ok (), { j with world := f j.world }) := rfl

@[simp] theorem play_world (j : Journal σ) : (world : Act σ σ).play j = (.ok j.world, j) := rfl

@[simp] theorem play_state (m : StateM (Journal σ) α) (j : Journal σ) :
    play (ExceptT.lift m) j = (.ok (m.run j).1, (m.run j).2) := rfl

@[simp] theorem play_outcome (a : Act σ α) (j : Journal σ) :
    a.outcome.play j = (.ok (a.play j).1, (a.play j).2) := rfl

theorem play_bind (a : Act σ α) (k : α → Act σ β) (j : Journal σ) :
    (a >>= k).play j = match a.play j with
      | (.ok x, j') => (k x).play j'
      | (.error f, j') => (.error f, j') := by
  show StateT.bind a.run (ExceptT.bindCont k) j = _
  unfold StateT.bind
  show (match a.play j with | (r, j') => ExceptT.bindCont k r j') = _
  obtain ⟨r, j'⟩ := a.play j
  cases r <;> rfl

/-- The act has the outcome, if it is played from the right journal. -/
def Gives (a : Act σ α) (outcome : Except Failure α) : Prop := ∃ j, (a.play j).1 = outcome

end Act

def Journal.expecting (j : Journal World) (script : Script) : Journal World :=
  { j with world := { j.world with scripts := script :: j.world.scripts } }

namespace Runner

/-- A launch as it plays: the outcome is the failure of its performance, if there is one. -/
theorem play_run (r : Runner) (executable : String) (arguments : List String) (j : Journal World) :
    (r.run executable arguments).play j =
      let p := r.perform executable arguments j.world.nextScript.1
      ((match p.failure with
        | some failure => .error failure
        | none => .ok ()),
        ⟨j.events ++ p.events,
          j.world.nextScript.2.launched ⟨executable :: arguments, r.environment, p.killed⟩⟩) := by
  unfold run
  simp only [Act.play_bind, Act.play_world, Act.play_change, Act.play_note]
  cases (r.perform executable arguments j.world.nextScript.1).failure <;> rfl

end Runner

end CollectionRun
