import CollectionRun.Proofs.Pipeline.Advancing

/-! An outline does to a part of the world what an act does to the whole of it: `Follows` says so
of the outcome and of the part, and goes through every way of building acts. Observers that are
quiet about the part leave no mark on the outline of a pipeline (`follows_attempt`). -/

namespace CollectionRun

abbrev Outline (V : Type) := ExceptT Failure (StateM V)

namespace Outline

variable {V α β : Type}

def play (f : Outline V α) (v : V) : Except Failure α × V := f.run.run v

def outcome (f : Outline V α) : Outline V (Except Failure α) := ExceptT.lift f.run

@[simp] theorem play_outcome (f : Outline V α) (v : V) :
    f.outcome.play v = (.ok (f.play v).1, (f.play v).2) := rfl

theorem play_bind (f : Outline V α) (k : α → Outline V β) (v : V) :
    (f >>= k).play v = match f.play v with
      | (.ok x, v') => (k x).play v'
      | (.error failure, v') => (.error failure, v') := by
  show (match f.play v with | (r, v') => ExceptT.bindCont k r v') = _
  obtain ⟨r, v'⟩ := f.play v
  cases r <;> rfl

theorem ext {f g : Outline V α} (h : ∀ v, f.play v = g.play v) : f = g := funext h

end Outline

namespace Act

variable {σ V α β : Type} {view : σ → V}

theorem lift_ok (x : α) : (liftM (Except.ok x : Except Failure α) : Act σ α) = pure x := rfl

theorem ext {a b : Act σ α} (h : ∀ j, a.play j = b.play j) : a = b := funext h

/-- The act has the outcome of the outline and does to what `view` shows what the outline does. -/
def Follows (view : σ → V) (a : Act σ α) (f : Outline V α) : Prop :=
  ∀ j, ((a.play j).1, view (a.play j).2.world) = f.play (view j.world)

theorem follows_pure (x : α) : Follows view (pure x) (pure x) := fun _ => rfl

theorem follows_throw (failure : Failure) :
    Follows view (throw failure : Act σ α) (throw failure) := fun _ => rfl

theorem follows_lift (e : Except Failure α) : Follows view (liftM e) (liftM e) := fun _ => rfl

theorem follows_note (events : List Event) : Follows view (note events) (pure ()) := fun _ => rfl

theorem Follows.bind {a : Act σ α} {f : Outline V α} {k : α → Act σ β} {g : α → Outline V β}
    (ha : Follows view a f) (hk : ∀ x, Follows view (k x) (g x)) :
    Follows view (a >>= k) (f >>= g) := by
  intro j
  have first := ha j
  rw [play_bind, Outline.play_bind, ← first]
  obtain ⟨r, j'⟩ := a.play j
  cases r with
  | ok x => exact hk x j'
  | error failure => rfl

theorem Follows.bind_of_return {γ : Type} {a : Act σ γ} {f : Outline V α} {value : α → γ}
    {k : γ → Act σ β} {g : α → Outline V β} (ha : Follows view a (do return value (← f)))
    (hk : ∀ x, Follows view (k (value x)) (g x)) : Follows view (a >>= k) (f >>= g) := by
  intro j
  have first := ha j
  rw [Outline.play_bind] at first
  rw [play_bind, Outline.play_bind]
  generalize a.play j = played at first ⊢
  obtain ⟨r, j'⟩ := played
  generalize f.play (view j.world) = outlined at first ⊢
  obtain ⟨t, v⟩ := outlined
  cases t with
  | ok x =>
    obtain ⟨rfl, rfl⟩ := Prod.mk.inj first
    exact hk x j'
  | error failure =>
    obtain ⟨rfl, rfl⟩ := Prod.mk.inj first
    rfl

theorem Follows.outcome {a : Act σ α} {f : Outline V α} (h : Follows view a f) :
    Follows view a.outcome f.outcome := by
  intro j
  rw [play_outcome, Outline.play_outcome, ← h j]

theorem Follows.pure_bind {a : Act σ α} {x : α} {k : α → Act σ β} {f : Outline V β}
    (ha : Follows view a (pure x)) (hk : Follows view (k x) f) : Follows view (a >>= k) f := by
  intro j
  have first := ha j
  rw [play_bind]
  generalize a.play j = played at first ⊢
  obtain ⟨r, j'⟩ := played
  obtain ⟨rfl, same⟩ := Prod.mk.inj first
  have later := hk j'
  rwa [same] at later

theorem Follows.of_pure {a : Act σ α} {x : α} (h : Follows view a (pure x))
    {outcome : Except Failure α} {j j' : Journal σ} (played : a.play j = (outcome, j')) :
    outcome = .ok x ∧ view j'.world = view j.world := by
  have follows := h j
  rw [played] at follows
  exact Prod.mk.inj follows

/-- An act that leaves what `view` shows as it is, and comes to its end. -/
def Quiet (view : σ → V) (a : Act σ Unit) : Prop := Follows view a (pure ())

def Keeps (view : σ → V) (a : Act σ α) : Prop := ∀ j, view (a.play j).2.world = view j.world

theorem keeps_pure (x : α) : Keeps view (pure x) := fun _ => rfl

theorem keeps_throw (failure : Failure) : Keeps view (throw failure : Act σ α) := fun _ => rfl

theorem keeps_lift (e : Except Failure α) : Keeps view (liftM e) := fun _ => rfl

theorem keeps_note (events : List Event) : Keeps view (note events) := fun _ => rfl

theorem Keeps.bind {a : Act σ α} {k : α → Act σ β} (ha : Keeps view a)
    (hk : ∀ x, Keeps view (k x)) : Keeps view (a >>= k) := by
  intro j
  have first := ha j
  rw [play_bind]
  generalize a.play j = played at first ⊢
  obtain ⟨r, j'⟩ := played
  cases r with
  | ok x => exact (hk x j').trans first
  | error failure => exact first

theorem Keeps.outcome {a : Act σ α} (h : Keeps view a) : Keeps view a.outcome := h

theorem quiet_change {change : σ → σ} (h : ∀ w, view (change w) = view w) :
    Quiet view (Act.change change) := fun j => congrArg (Prod.mk _) (h j.world)

end Act

variable {σ V : Type} {view : σ → V}

namespace Observer

/-- An observer that never fails, and leaves what `view` shows and the results as they are. -/
structure Quiet (view : σ → V) (o : Observer σ) : Prop where
  before : ∀ stage, Act.Quiet view (o.before stage)
  after : ∀ stage result, Act.Follows view (o.after stage result) (pure result)
  failed : ∀ stage failure, Act.Quiet view (o.failed stage failure)

variable {observers : List (Observer σ)}

theorem follows_tell {α : Type} {what : Observer σ → α → Act σ α} {x : α}
    (h : ∀ o ∈ observers, Act.Follows view (what o x) (pure x)) :
    Act.Follows view (tell observers what x) (pure x) := by
  induction observers with
  | nil => exact Act.follows_pure x
  | cons o rest ih =>
    rw [List.forall_mem_cons] at h
    exact h.1.pure_bind (ih h.2)

variable (quiet : ∀ o ∈ observers, o.Quiet view) (stage : String)

include quiet

theorem quiet_tellBefore : Act.Quiet view (tellBefore observers stage) :=
  follows_tell fun o member => (quiet o member).before stage

theorem follows_tellAfter (result : StageResult) :
    Act.Follows view (tellAfter observers stage result) (pure result) :=
  follows_tell fun o member => (quiet o member).after stage result

theorem quiet_tellFailed (failure : Failure) :
    Act.Quiet view (tellFailed observers stage failure) :=
  follows_tell fun o member => (quiet o member).failed stage failure

end Observer

namespace Stage

variable {observers : List (Observer σ)} {c : Config} {s : Stage σ} {entries left : Entries}

def Follows (view : σ → V) (s : Stage σ) (c : Config) (entries : Entries)
    (f : Outline V StageResult) : Prop :=
  ∀ j, ((s.process c entries).run j).1.entries = entries ∧
    (((s.process c entries).run j).1.outcome, view ((s.process c entries).run j).2.world) =
      f.play (view j.world)

theorem follows_declared {d : Declaration} {act : Config → Entries → Act σ StageResult}
    {f : Outline V StageResult} (h : Act.Follows view (act c entries) f) :
    (declared d act).Follows view c entries f := fun j => ⟨rfl, h j⟩

def Keeps (view : σ → V) (s : Stage σ) (c : Config) (entries : Entries) : Prop :=
  ∀ j, view ((s.process c entries).run j).2.world = view j.world

theorem keeps_declared {d : Declaration} {act : Config → Entries → Act σ StageResult}
    (h : Act.Keeps view (act c entries)) : (declared d act).Keeps view c entries := h

/-- An attempt at a stage as an act that gives the entries after it. -/
def attempt (observers : List (Observer σ)) (c : Config) (s : Stage σ) (entries : Entries) :
    Act σ Entries :=
  ExceptT.mk do
    let ending ← s.advance observers c entries
    return match ending.failure with
      | some failure => .error failure
      | none => .ok ending.entries

theorem play_attempt (j : Journal σ) : (s.attempt observers c entries).play j =
    let ending := (s.advance observers c entries).run j
    ((match ending.1.failure with
      | some failure => .error failure
      | none => .ok ending.1.entries), ending.2) := rfl

variable {j j₁ j₂ : Journal σ} {outcome : Except Failure StageResult}

theorem Works.keeps (quiet : ∀ o ∈ observers, o.Quiet view) (keeps : s.Keeps view c entries)
    {work : Work} (works : s.Works observers c entries j work j₂) :
    view j₂.world = view j.world := by
  obtain ⟨-, j₁, before, process⟩ := works
  have kept := keeps j₁
  rw [process] at kept
  exact kept.trans ((Observer.quiet_tellBefore quiet s.name).of_pure before).2

section

variable {α : Type} {f : Outline V α} {result : α → StageResult}

theorem Works.follows (quiet : ∀ o ∈ observers, o.Quiet view)
    (h : s.Follows view c entries (do return result (← f)))
    (works : s.Works observers c entries j ⟨outcome, left⟩ j₂) :
    left = entries ∧ (outcome, view j₂.world) = match f.play (view j.world) with
      | (.ok x, v) => (.ok (result x), v)
      | (.error failure, v) => (.error failure, v) := by
  obtain ⟨-, j₁, before, process⟩ := works
  obtain ⟨same, follows⟩ := h j₁
  rw [process, ((Observer.quiet_tellBefore quiet s.name).of_pure before).2,
    Outline.play_bind] at follows
  rw [process] at same
  exact ⟨same, follows⟩

/-- A stage that lacks nothing and, unless it fails, completes leaves its data among the entries. -/
theorem follows_attempt (quiet : ∀ o ∈ observers, o.Quiet view) (present : s.missing entries = [])
    (completed : ∀ x, (result x).status = .completed)
    (h : s.Follows view c entries (do return result (← f))) :
    Act.Follows view (s.attempt observers c entries)
      (do return entries.update (result (← f)).data) := by
  intro j
  have advances := s.advances observers c entries j
  rw [play_attempt, Outline.play_bind]
  generalize (s.advance observers c entries).run j = attempted at advances ⊢
  obtain ⟨ending, j'⟩ := attempted
  have followed {outcome : Except Failure StageResult} {left : Entries} {j₂ : Journal σ}
      (works : s.Works observers c entries j ⟨outcome, left⟩ j₂) := works.follows quiet h
  generalize f.play (view j.world) = outlined at followed ⊢
  obtain ⟨outcome', v⟩ := outlined
  cases advances with
  | lacking missing => exact absurd present missing
  | heldUp _ before => cases ((Observer.quiet_tellBefore quiet s.name).of_pure before).1
  | halted works halts =>
    obtain ⟨-, same⟩ := followed works
    cases outcome' <;> cases same
    rfl
  | raised works caught failed =>
    have world := ((Observer.quiet_tellFailed quiet s.name _).of_pure failed).2
    obtain ⟨-, same⟩ := followed works
    cases outcome' <;> cases same
    exact congrArg (Prod.mk _) world
  | raisedUntold works caught failed =>
    cases ((Observer.quiet_tellFailed quiet s.name _).of_pure failed).1
  | returnedUntold works after =>
    cases ((Observer.follows_tellAfter quiet s.name _).of_pure after).1
  | declined works after failed =>
    obtain ⟨handed, -⟩ := (Observer.follows_tellAfter quiet s.name _).of_pure after
    cases handed
    obtain ⟨-, same⟩ := followed works
    cases outcome' with
    | error g => cases same
    | ok x =>
      cases same
      cases (completed x).symm.trans failed
  | completed works after going =>
    obtain ⟨handed, world⟩ := (Observer.follows_tellAfter quiet s.name _).of_pure after
    cases handed
    obtain ⟨rfl, same⟩ := followed works
    cases outcome' with
    | error g => cases same
    | ok x =>
      cases same
      exact congrArg (Prod.mk _) world

end

theorem keeps_attempt (quiet : ∀ o ∈ observers, o.Quiet view) (keeps : s.Keeps view c entries) :
    Act.Keeps view (s.attempt observers c entries) := by
  intro j
  have advances := s.advances observers c entries j
  rw [play_attempt]
  generalize (s.advance observers c entries).run j = attempted at advances ⊢
  obtain ⟨ending, j'⟩ := attempted
  cases advances with
  | lacking missing => rfl
  | heldUp present before => exact ((Observer.quiet_tellBefore quiet s.name).of_pure before).2
  | halted works halts => exact works.keeps quiet keeps
  | raised works caught failed | raisedUntold works caught failed =>
    have kept := works.keeps quiet keeps
    exact ((Observer.quiet_tellFailed quiet s.name _).of_pure failed).2.trans kept
  | returnedUntold works after | declined works after failed | completed works after going =>
    have kept := works.keeps quiet keeps
    exact ((Observer.follows_tellAfter quiet s.name _).of_pure after).2.trans kept

end Stage

namespace Pipeline

variable {observers : List (Observer σ)} {c : Config}

def through (observers : List (Observer σ)) (c : Config) (entries : Entries) :
    List (Stage σ) → Act σ Entries
  | [] => return entries
  | s :: rest => do through observers c (← s.attempt observers c entries) rest

theorem play_through (entries : Entries) (stages : List (Stage σ)) (j : Journal σ) :
    (through observers c entries stages).play j =
      let ending := (runFrom observers c entries stages).run j
      ((match ending.1.failure with
        | some failure => .error failure
        | none => .ok ending.1.entries), ending.2) := by
  induction stages generalizing entries j with
  | nil => rfl
  | cons s rest ih =>
    cases advanced : (s.advance observers c entries).run j with
    | mk ending j' =>
    rw [through, runFrom, Act.play_bind, Stage.play_attempt, run_bind advanced, advanced]
    obtain ⟨entries', failure?⟩ := ending
    cases failure? with
    | none => exact ih entries' j'
    | some failure => rfl

theorem follows_through_cons {α β : Type} {s : Stage σ} {rest : List (Stage σ)}
    {entries : Entries} {f : Outline V α} {left : α → Entries} {g : α → Outline V β}
    {k : Entries → Act σ β}
    (first : Act.Follows view (s.attempt observers c entries) (do return left (← f)))
    (later : ∀ x, Act.Follows view (through observers c (left x) rest >>= k) (g x)) :
    Act.Follows view (through observers c entries (s :: rest) >>= k) (f >>= g) := by
  rw [through, bind_assoc]
  exact Act.Follows.bind_of_return first later

theorem keeps_through {stages : List (Stage σ)} (quiet : ∀ o ∈ observers, o.Quiet view)
    (h : ∀ s ∈ stages, ∀ entries, s.Keeps view c entries) (entries : Entries) :
    Act.Keeps view (through observers c entries stages) := by
  induction stages generalizing entries with
  | nil => exact Act.keeps_pure entries
  | cons s rest ih =>
    rw [List.forall_mem_cons] at h
    exact (Stage.keeps_attempt quiet (h.1 entries)).bind fun entries' => ih h.2 entries'

end Pipeline

end CollectionRun
