import CollectionRun.Config.Layers
import CollectionRun.Proofs.Except

/-! A configuration is built of a layer exactly when every setting has a value that is accepted
(`ofLayer_eq_ok_iff`). An object is refused everywhere, so that joining objects of two layers
shows in the values of violations only (`settled_atop`). -/

namespace CollectionRun

namespace Kind

/-- A count is not negative, and a sandbox is one of the modes. -/
def Accepts : (k : Kind) → k.Carrier → Prop
  | .count, n => 0 ≤ n
  | .sandbox, mode => mode ∈ sandboxModes
  | _, _ => True

def Natural : (k : Kind) → k.Carrier → Prop
  | .count, n => 0 ≤ n
  | _, _ => True

/-- A count of more digits than are ever written. -/
def Overlong : (k : Kind) → k.Carrier → Prop
  | .count, n => Text.digitLimit < Text.digitCount n
  | _, _ => False

theorem Accepts.natural {k : Kind} {x : k.Carrier} (h : k.Accepts x) : k.Natural x := by
  cases k with
  | count => exact h
  | _ => trivial

end Kind

namespace Setting

variable {α : Type} {s : Setting}

theorem whole_eq_ok {given : Json.Value} {r : Except Problem α} {x : α}
    (h : s.whole given r = .ok x) : r = .ok x := by
  cases r with
  | ok y => exact congrArg Except.ok (Except.ok.inj h)
  | error problem => contradiction

theorem readCount_eq_ok_iff {v : Json.Value} {n : Int} :
    readCount v = .ok n ↔ integerOf v = .ok n ∧ 0 ≤ n := by
  unfold readCount
  rw [bind_eq_ok_iff]
  constructor
  · rintro ⟨m, given, kept⟩
    split at kept
    · contradiction
    · obtain rfl := Except.ok.inj kept
      exact ⟨given, by omega⟩
  · rintro ⟨given, natural⟩
    exact ⟨n, given, if_neg (by omega)⟩

theorem readSandbox_eq_ok_iff {v : Json.Value} {mode : String} :
    readSandbox v = .ok mode ↔ v = .string mode ∧ mode ∈ sandboxModes := by
  unfold readSandbox
  constructor
  · intro h
    split at h
    · split at h
      · next known =>
        obtain rfl := Except.ok.inj h
        exact ⟨rfl, List.contains_iff_mem.mp known⟩
      · contradiction
    · contradiction
  · rintro ⟨rfl, known⟩
    exact if_pos (List.contains_iff_mem.mpr known)

theorem readWords_map_string (index : Nat) (texts : List String) :
    readWords index (texts.map .string) = (texts, []) := by
  induction texts generalizing index with
  | nil => rfl
  | cons text texts ih => rw [List.map_cons, readWords, ih]

theorem accepts_of_readAs {k : Kind} {v : Json.Value} {x : k.Carrier}
    (h : s.readAs k v = .ok x) : k.Accepts x := by
  cases k with
  | count => exact (readCount_eq_ok_iff.mp (whole_eq_ok h)).2
  | sandbox => exact (readSandbox_eq_ok_iff.mp (whole_eq_ok h)).2
  | _ => trivial

/-- A value that comes of validation is validated to itself. -/
theorem readAs_toJson {k : Kind} {x : k.Carrier} (accepted : k.Accepts x) :
    s.readAs k (k.toJson x) = .ok x := by
  cases k with
  | text => rfl
  | flag => rfl
  | count =>
    have read : readCount (.integer x) = .ok x := readCount_eq_ok_iff.mpr ⟨rfl, accepted⟩
    exact congrArg (s.whole _) read
  | sandbox =>
    have read : readSandbox (.string x) = .ok x := readSandbox_eq_ok_iff.mpr ⟨rfl, accepted⟩
    exact congrArg (s.whole _) read
  | words =>
    have read : readWords 0 (List.map .string x) = (x, []) := readWords_map_string 0 x
    simp only [readAs, Kind.toJson, Json.Value.strings, readList, read]

theorem ne_nil_of_whole {given : Json.Value} {r : Except Problem α} {vs : List Violation}
    (h : s.whole given r = .error vs) : vs ≠ [] := by
  cases r with
  | ok y => contradiction
  | error problem =>
    obtain rfl := Except.error.inj h
    exact List.cons_ne_nil _ _

theorem ne_nil_of_readAs {k : Kind} {v : Json.Value} {vs : List Violation}
    (h : s.readAs k v = .error vs) : vs ≠ [] := by
  cases k with
  | words =>
    simp only [readAs, readList] at h
    split at h
    · split at h
      · contradiction
      · next bad _ =>
        obtain rfl := Except.error.inj h
        rw [ne_eq, List.map_eq_nil_iff]
        assumption
    · exact ne_nil_of_whole h
  | _ => exact ne_nil_of_whole h

/-- No setting takes an object, and what is wrong with one is wrong with all. -/
theorem read_object (s : Setting) : ∃ problem, ∀ members,
    s.read (.object members) =
      .error [{ setting := s.name, problem, given := .object members }] := by
  unfold read
  cases s.kind with
  | _ => exact ⟨_, fun _ => rfl⟩

theorem accepts_default (s : Setting) : s.kind.Accepts s.default := by
  cases s with
  | delay | iterationCount => exact Int.le_refl 0
  | sandboxMode =>
    have listed : "safe" ∈ sandboxModes := by decide
    exact listed
  | _ => trivial

end Setting

/-- What a violation says, but for the value. -/
def Violation.complaint (v : Violation) : String × Option Nat × Problem :=
  (v.setting, v.index, v.problem)

namespace Config

def Natural (c : Config) : Prop := ∀ s : Setting, s.kind.Natural (c.get s)

/-- The setting is a count of more digits than are ever written. -/
def Overlong (c : Config) (s : Setting) : Prop := s.kind.Overlong (c.get s)

/-- Every count can be written. -/
def Writable (c : Config) : Prop := ∀ s, ¬ c.Overlong s

theorem natural_standard : standard.Natural := fun s => s.accepts_default.natural

theorem Natural.set {c : Config} (natural : c.Natural) {s : Setting} {v : s.kind.Carrier}
    (start : s.kind.Natural v) : (c.set s v).Natural := by
  intro t
  by_cases same : s = t
  · subst same
    rw [get_set_self]
    exact start
  · rw [c.get_set_of_ne v same]
    exact natural t

theorem writable_standard : standard.Writable := by
  have zero : ¬ Text.digitLimit < Text.digitCount 0 := by decide
  intro s long
  cases s with
  | delay | iterationCount => exact zero long
  | _ => exact long

theorem accepts_of_resolve {s : Setting} {given? : Option Json.Value} {x : s.kind.Carrier}
    (h : resolve s given? = .ok x) : s.kind.Accepts x := by
  cases given? with
  | some v => exact Setting.accepts_of_readAs h
  | none =>
    obtain rfl := Except.ok.inj h
    exact s.accepts_default

theorem violationsOf_eq_nil_iff {layer : Layer} {s : Setting} :
    violationsOf layer s = [] ↔ ∃ x, resolve s (layer s) = .ok x := by
  unfold violationsOf
  cases found : resolve s (layer s) with
  | ok x => exact iff_of_true rfl ⟨x, rfl⟩
  | error vs =>
    refine iff_of_false ?_ nofun
    cases given : layer s with
    | some v =>
      rw [given] at found
      exact Setting.ne_nil_of_readAs found
    | none =>
      rw [given] at found
      contradiction

theorem ofLayer_eq_ok_iff {layer : Layer} {c : Config} :
    ofLayer layer = .ok c ↔ ∀ s, resolve s (layer s) = .ok (c.get s) := by
  unfold ofLayer
  split
  · next none =>
    have accepted : ∀ s, ∃ x, resolve s (layer s) = .ok x := fun s =>
      violationsOf_eq_nil_iff.mp (List.flatMap_eq_nil_iff.mp none s s.mem_all)
    constructor
    · intro h s
      obtain rfl := Except.ok.inj h
      obtain ⟨x, found⟩ := accepted s
      simp only [found]
      rfl
    · intro h
      refine congrArg Except.ok (ext fun s => ?_)
      simp only [h s]
      rfl
  · next some =>
    refine iff_of_false nofun fun h => some ?_
    refine List.flatMap_eq_nil_iff.mpr fun s _ => ?_
    exact violationsOf_eq_nil_iff.mpr ⟨_, h s⟩

theorem ofLayer_eq_error {layer : Layer} {vs : List Violation} (h : ofLayer layer = .error vs) :
    vs = Setting.all.flatMap (violationsOf layer) := by
  unfold ofLayer at h
  split at h
  · contradiction
  · exact (Except.error.inj h).symm

def settled (s : Setting) (given? : Option Json.Value) :
    Except (List (String × Option Nat × Problem)) s.kind.Carrier :=
  (resolve s given?).mapError (List.map Violation.complaint)

theorem settled_eq_ok_iff {s : Setting} {given? : Option Json.Value} {x : s.kind.Carrier} :
    settled s given? = .ok x ↔ resolve s given? = .ok x := mapError_eq_ok_iff

/-- What is said on a setting, if it is refused. -/
def complaints (s : Setting) (given? : Option Json.Value) : List (String × Option Nat × Problem) :=
  match settled s given? with
  | .ok _ => []
  | .error found => found

theorem map_complaint_violationsOf (layer : Layer) (s : Setting) :
    (violationsOf layer s).map Violation.complaint = complaints s (layer s) := by
  unfold violationsOf complaints settled
  cases resolve s (layer s) <;> rfl

theorem settled_overlay (s : Setting) (low high : Json.Value) :
    settled s (some (low.overlay high)) = settled s (some high) := by
  obtain ⟨problem, refused⟩ := s.read_object
  cases low with
  | object low =>
    cases high with
    | object high =>
      rw [Json.Value.overlay]
      simp only [settled, resolve, refused]
      rfl
    | _ => simp only [Json.Value.overlay]
  | _ => simp only [Json.Value.overlay]

theorem settled_atop (s : Setting) (higher lower : Layer) :
    settled s ((higher.atop lower) s) = settled s ((higher s).or (lower s)) := by
  unfold Layer.atop
  cases higher s with
  | none => rfl
  | some high =>
    cases lower s with
    | none => rfl
    | some low => exact settled_overlay s low high

end Config

end CollectionRun
