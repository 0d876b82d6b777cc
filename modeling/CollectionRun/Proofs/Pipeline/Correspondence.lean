import CollectionRun.Pipeline.Run
import CollectionRun.Proofs.Acts
import Mathlib.Data.List.Forall2

/-! Two computations correspond along a map of journals if they give the same and the map takes
what the one leaves to what the other leaves. -/

namespace CollectionRun

variable {σ τ α β : Type} {φ : Journal τ → Journal σ}

/-- `m'` does to a journal what `m` does to the one that `φ` makes of it. -/
def Along (φ : Journal τ → Journal σ) (m : StateM (Journal σ) α) (m' : StateM (Journal τ) α) :
    Prop :=
  ∀ j, m.run (φ j) = ((m'.run j).1, φ (m'.run j).2)

theorem along_return (x : α) :
    Along φ (pure x : StateM (Journal σ) α) (pure x : StateM (Journal τ) α) := fun _ => rfl

theorem Along.bind {m : StateM (Journal σ) α} {m' : StateM (Journal τ) α}
    {k : α → StateM (Journal σ) β} {k' : α → StateM (Journal τ) β} (first : Along φ m m')
    (rest : ∀ x, Along φ (k x) (k' x)) : Along φ (m >>= k) (m' >>= k') := by
  intro j
  have before := first j
  cases other : m'.run j with
  | mk x j' =>
  rw [other] at before
  rw [run_bind before, run_bind other]
  exact rest x j'

namespace Act

def Along (φ : Journal τ → Journal σ) (a : Act σ α) (b : Act τ α) : Prop :=
  CollectionRun.Along φ a.run b.run

theorem along_pure (x : α) : Along φ (pure x) (pure x) := fun _ => rfl

theorem along_throw (f : Failure) : Along φ (throw f : Act σ α) (throw f) := fun _ => rfl

theorem Along.bind {a : Act σ α} {b : Act τ α} {k : α → Act σ β} {l : α → Act τ β}
    (first : Along φ a b) (rest : ∀ x, Along φ (k x) (l x)) : Along φ (a >>= k) (b >>= l) := by
  show CollectionRun.Along φ (a.run >>= ExceptT.bindCont k) (b.run >>= ExceptT.bindCont l)
  refine CollectionRun.Along.bind first fun outcome => ?_
  cases outcome with
  | ok x => exact rest x
  | error f => exact along_return _

end Act

/-- What is noted before the map is noted behind it too. -/
def KeepsNotes (φ : Journal τ → Journal σ) : Prop :=
  ∀ events, Act.Along φ (Act.note events) (Act.note events)

namespace Observer

structure Along (φ : Journal τ → Journal σ) (o : Observer σ) (o' : Observer τ) : Prop where
  before : ∀ stage, Act.Along φ (o.before stage) (o'.before stage)
  after : ∀ stage result, Act.Along φ (o.after stage result) (o'.after stage result)
  failed : ∀ stage f, Act.Along φ (o.failed stage f) (o'.failed stage f)

theorem along_tell {observers : List (Observer σ)} {observers' : List (Observer τ)}
    {what : Observer σ → α → Act σ α} {what' : Observer τ → α → Act τ α}
    (each : List.Forall₂ (fun o o' => ∀ x, Act.Along φ (what o x) (what' o' x)) observers observers')
    (x : α) : Act.Along φ (tell observers what x) (tell observers' what' x) := by
  induction each generalizing x with
  | nil => exact Act.along_pure x
  | cons first _ ih => exact (first x).bind ih

variable {observers : List (Observer σ)} {observers' : List (Observer τ)}

theorem along_tellBefore (observed : List.Forall₂ (Along φ) observers observers') (stage : String) :
    Act.Along φ (tellBefore observers stage) (tellBefore observers' stage) :=
  along_tell (observed.imp fun _ _ h _ => h.before stage) ()

theorem along_tellAfter (observed : List.Forall₂ (Along φ) observers observers') (stage : String)
    (result : StageResult) :
    Act.Along φ (tellAfter observers stage result) (tellAfter observers' stage result) :=
  along_tell (observed.imp fun _ _ h => h.after stage) result

theorem along_tellFailed (observed : List.Forall₂ (Along φ) observers observers') (stage : String)
    (failure : Failure) :
    Act.Along φ (tellFailed observers stage failure) (tellFailed observers' stage failure) :=
  along_tell (observed.imp fun _ _ h _ => h.failed stage failure) ()

end Observer

namespace Stage

structure Along (φ : Journal τ → Journal σ) (s : Stage σ) (s' : Stage τ) : Prop where
  name : s'.name = s.name
  missing : ∀ entries, s'.missing entries = s.missing entries
  process : ∀ c entries, CollectionRun.Along φ (s.process c entries) (s'.process c entries)

variable {observers : List (Observer σ)} {observers' : List (Observer τ)} {s : Stage σ}
  {s' : Stage τ} (notes : KeepsNotes φ)
  (observed : List.Forall₂ (Observer.Along φ) observers observers') (same : s.Along φ s')

include notes observed same

theorem along_settle (outcome : Except Failure StageResult) :
    Act.Along φ (s.settle observers outcome) (s'.settle observers' outcome) := by
  cases outcome with
  | ok result =>
    rw [settle, settle, same.name]
    exact Observer.along_tellAfter observed s.name result
  | error f =>
    rw [settle, settle, same.name]
    split
    · exact Act.along_throw f
    · exact (notes _).bind fun _ => (Observer.along_tellFailed observed s.name f).bind fun _ =>
        Act.along_throw f

theorem along_attend (c : Config) (entries : Entries) :
    CollectionRun.Along φ (s.attend observers c entries) (s'.attend observers' c entries) := by
  rw [attend, attend, same.name]
  refine CollectionRun.Along.bind (Observer.along_tellBefore observed s.name) fun told => ?_
  cases told with
  | error f => exact along_return _
  | ok _ =>
    refine (same.process c entries).bind fun work => ?_
    have settled := along_settle notes observed same work.outcome
    exact CollectionRun.Along.bind settled fun _ => along_return _

theorem along_advance (c : Config) (entries : Entries) :
    CollectionRun.Along φ (s.advance observers c entries) (s'.advance observers' c entries) := by
  rw [advance, advance, same.name, same.missing]
  split
  · refine (along_attend notes observed same c entries).bind fun work => ?_
    split
    · exact along_return _
    · split
      · exact along_return _
      · exact along_return _
  · exact CollectionRun.Along.bind (notes _) fun _ => along_return _

end Stage

theorem forall₂_mapIdx {γ : Type} {related : α → β → Prop} {f : Nat → γ → α} {g : Nat → γ → β}
    (each : ∀ i x, related (f i x) (g i x)) (xs : List γ) :
    List.Forall₂ related (xs.mapIdx f) (xs.mapIdx g) := by
  rw [List.forall₂_iff_get]
  refine ⟨by rw [List.length_mapIdx, List.length_mapIdx], fun i _ _ => ?_⟩
  rw [List.get_eq_getElem, List.get_eq_getElem, List.getElem_mapIdx, List.getElem_mapIdx]
  exact each i _

theorem forall₂_mapIdx_right {related : α → β → Prop} {f : Nat → α → β}
    (each : ∀ i x, related x (f i x)) (xs : List α) : List.Forall₂ related xs (xs.mapIdx f) := by
  have self : xs.mapIdx (fun _ x => x) = xs := List.ext_getElem (by simp) (by simp)
  have all := forall₂_mapIdx (f := fun _ x => x) each xs
  rwa [self] at all

namespace Pipeline

/-- Runs of stages and observers that correspond end alike, in journals that correspond. -/
theorem along_runFrom {observers : List (Observer σ)} {observers' : List (Observer τ)}
    {stages : List (Stage σ)} {stages' : List (Stage τ)} (notes : KeepsNotes φ)
    (observed : List.Forall₂ (Observer.Along φ) observers observers')
    (same : List.Forall₂ (Stage.Along φ) stages stages') (c : Config) (entries : Entries)
    (j : Journal τ) :
    let ran := (runFrom observers' c entries stages').run j
    (runFrom observers c entries stages).run (φ j) = (ran.1, φ ran.2) := by
  induction same generalizing entries j with
  | nil => rfl
  | @cons s s' _ _ first _ ih =>
    have advanced := Stage.along_advance notes observed first c entries j
    cases other : (s'.advance observers' c entries).run j with
    | mk ending j' =>
    rw [other] at advanced
    rw [runFrom, runFrom, run_bind advanced, run_bind other]
    obtain ⟨entries', failure?⟩ := ending
    cases failure? with
    | none => exact ih entries' j'
    | some f => rfl

end Pipeline

end CollectionRun
