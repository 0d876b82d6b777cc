import CollectionRun.Proofs.Forwarding

namespace CollectionRun

/-- The last list has the elements of the first two, those of each in their order. -/
inductive Interleaving {α : Type} : List α → List α → List α → Prop
  | nil : Interleaving [] [] []
  | left {x : α} {a b m : List α} (rest : Interleaving a b m) :
    Interleaving (x :: a) b (x :: m)
  | right {x : α} {a b m : List α} (rest : Interleaving a b m) :
    Interleaving a (x :: b) (x :: m)

namespace Interleaving

variable {α β : Type} {a b m : List α} {f : α → Option β}

theorem symm (h : Interleaving a b m) : Interleaving b a m := by
  induction h with
  | nil => exact .nil
  | left _ ih => exact .right ih
  | right _ ih => exact .left ih

theorem append (a b : List α) : Interleaving a b (a ++ b) := by
  induction a with
  | nil =>
    induction b with
    | nil => exact .nil
    | cons x b ih => exact .right ih
  | cons x a ih => exact .left ih

theorem findSome?_cases (h : Interleaving a b m) :
    m.findSome? f = a.findSome? f ∨ m.findSome? f = b.findSome? f := by
  induction h with
  | nil => exact .inl rfl
  | @left x a b m _ ih =>
    rw [List.findSome?_cons, List.findSome?_cons]
    cases f x with
    | some y => exact .inl rfl
    | none => exact ih
  | @right x a b m _ ih =>
    rw [List.findSome?_cons, List.findSome?_cons]
    cases f x with
    | some y => exact .inr rfl
    | none => exact ih

theorem findSome?_of_left_eq_none (h : Interleaving a b m) (none : a.findSome? f = none) :
    m.findSome? f = b.findSome? f := by
  induction h with
  | nil => rfl
  | @left x a b m _ ih =>
    rw [List.findSome?_eq_none_iff, List.forall_mem_cons] at none
    rw [List.findSome?_cons, none.1]
    exact ih (List.findSome?_eq_none_iff.mpr none.2)
  | @right x a b m _ ih =>
    rw [List.findSome?_cons, List.findSome?_cons]
    cases f x with
    | some y => rfl
    | none => exact ih none

theorem findSome?_eq_none_iff (h : Interleaving a b m) :
    m.findSome? f = none ↔ a.findSome? f = none ∧ b.findSome? f = none := by
  constructor
  · intro none
    rcases h.findSome?_cases (f := f) with same | same
    · rw [none] at same
      exact ⟨same.symm, (h.findSome?_of_left_eq_none same.symm).symm.trans none⟩
    · rw [none] at same
      exact ⟨(h.symm.findSome?_of_left_eq_none same.symm).symm.trans none, same.symm⟩
  · rintro ⟨first, second⟩
    exact (h.findSome?_of_left_eq_none first).trans second

end Interleaving

namespace Patterns

variable {patterns : Patterns} {line : String} {lines a b m m' : List String}

/-- No pattern stands for the category of what is put down to none. -/
def SparesUndefined (patterns : Patterns) : Prop :=
  ∀ ps, (.undefined, ps) ∈ patterns.entries → ps = []

theorem ne_undefined_of_matching? (spares : patterns.SparesUndefined) {category : Category}
    (h : patterns.matching? line = some category) : category ≠ .undefined := by
  rintro rfl
  obtain ⟨⟨category, ps⟩, member, found⟩ := List.exists_of_findSome?_eq_some h
  dsimp only at found
  split at found
  · next holds =>
    obtain rfl := Option.some.inj found
    rw [spares ps member] at holds
    contradiction
  · contradiction

theorem categorize_eq_undefined_iff (spares : patterns.SparesUndefined) :
    patterns.categorize lines = .undefined ↔ lines.findSome? patterns.matching? = none := by
  unfold categorize
  cases found : lines.findSome? patterns.matching? with
  | none => exact iff_of_true rfl rfl
  | some category =>
    obtain ⟨line, -, matched⟩ := List.exists_of_findSome?_eq_some found
    exact iff_of_false (ne_undefined_of_matching? spares matched) (Option.some_ne_none _)

theorem exists_matching_of_categorize (spares : patterns.SparesUndefined)
    (defined : patterns.categorize lines ≠ .undefined) :
    ∃ line ∈ lines, patterns.matching? line = some (patterns.categorize lines) := by
  have some := mt (categorize_eq_undefined_iff spares).mpr defined
  obtain ⟨category, found⟩ := Option.ne_none_iff_exists'.mp some
  obtain ⟨line, member, matched⟩ := List.exists_of_findSome?_eq_some found
  refine ⟨line, member, ?_⟩
  rw [categorize, found]
  exact matched

theorem categorize_of_left_undefined (spares : patterns.SparesUndefined)
    (h : Interleaving a b m) (undefined : patterns.categorize a = .undefined) :
    patterns.categorize m = patterns.categorize b := by
  have none := (categorize_eq_undefined_iff spares).mp undefined
  rw [categorize, h.findSome?_of_left_eq_none none, categorize]

theorem categorize_cases (patterns : Patterns) (h : Interleaving a b m) :
    patterns.categorize m = patterns.categorize a ∨
      patterns.categorize m = patterns.categorize b := by
  unfold categorize
  rcases h.findSome?_cases (f := patterns.matching?) with same | same
  · exact .inl (by rw [same])
  · exact .inr (by rw [same])

theorem exists_matching_of_ne (spares : patterns.SparesUndefined) (h : Interleaving a b m)
    (h' : Interleaving a b m') (different : patterns.categorize m' ≠ patterns.categorize m) :
    ∃ x ∈ a, ∃ y ∈ b, ∃ c d,
      patterns.matching? x = some c ∧ patterns.matching? y = some d ∧ c ≠ d := by
  have definedA : patterns.categorize a ≠ .undefined := by
    intro undefined
    rw [categorize_of_left_undefined spares h undefined,
      categorize_of_left_undefined spares h' undefined] at different
    exact different rfl
  have definedB : patterns.categorize b ≠ .undefined := by
    intro undefined
    rw [categorize_of_left_undefined spares h.symm undefined,
      categorize_of_left_undefined spares h'.symm undefined] at different
    exact different rfl
  obtain ⟨x, memberX, matchedX⟩ := exists_matching_of_categorize spares definedA
  obtain ⟨y, memberY, matchedY⟩ := exists_matching_of_categorize spares definedB
  refine ⟨x, memberX, y, memberY, _, _, matchedX, matchedY, fun same => different ?_⟩
  rcases categorize_cases patterns h with first | first
  · rcases categorize_cases patterns h' with second | second
    · rw [first, second]
    · rw [first, second, same]
  · rcases categorize_cases patterns h' with second | second
    · rw [first, second, same]
    · rw [first, second]

/-- Lines in any order that keeps that of two streams have the category of one of the streams, and
none exactly if neither stream has one. A stream without a category does not count, so the order
matters only where both have a line of a category of its own. -/
theorem categorize_interleaving (spares : patterns.SparesUndefined) (h : Interleaving a b m) :
    (patterns.categorize m = patterns.categorize a ∨
        patterns.categorize m = patterns.categorize b) ∧
      (patterns.categorize m = .undefined ↔
        patterns.categorize a = .undefined ∧ patterns.categorize b = .undefined) ∧
      (patterns.categorize a = .undefined → patterns.categorize m = patterns.categorize b) ∧
      (patterns.categorize b = .undefined → patterns.categorize m = patterns.categorize a) ∧
      ∀ m', Interleaving a b m' → patterns.categorize m' ≠ patterns.categorize m →
        ∃ x ∈ a, ∃ y ∈ b, ∃ c d,
          patterns.matching? x = some c ∧ patterns.matching? y = some d ∧ c ≠ d := by
  refine ⟨categorize_cases patterns h, ?_, categorize_of_left_undefined spares h,
    categorize_of_left_undefined spares h.symm, fun m' h' => exists_matching_of_ne spares h h'⟩
  simp only [categorize_eq_undefined_iff spares]
  exact h.findSome?_eq_none_iff

theorem categorize_interleaving_of_two_failures :
    let a := ["Running", "collection not found"]
    let b := ["1 test failed"]
    let m := ["Running", "1 test failed", "collection not found"]
    let m' := ["Running", "collection not found", "1 test failed"]
    standard.SparesUndefined ∧ Interleaving a b m ∧ Interleaving a b m' ∧
      standard.categorize m' ≠ standard.categorize m ∧
      (standard.categorize m = standard.categorize a ∨
        standard.categorize m = standard.categorize b) ∧
      ∃ x ∈ a, ∃ y ∈ b, ∃ c d,
        standard.matching? x = some c ∧ standard.matching? y = some d ∧ c ≠ d := by
  intro a b m m'
  have spares : standard.SparesUndefined := by
    intro ps member
    simp [standard] at member
  have merged : Interleaving a b m := .left (.right (.left .nil))
  have merged' : Interleaving a b m' := .left (.left (.right .nil))
  have different : standard.categorize m' ≠ standard.categorize m := by decide
  obtain ⟨one, -, -, -, both⟩ := categorize_interleaving spares merged
  exact ⟨spares, merged, merged', different, one, both m' merged' different⟩

end Patterns

namespace Runner

open Text Forwarded

/-- A program that fails would have been put down to the same category if its lines had come in
another order, unless both streams have a line of a category of its own. -/
theorem failure_of_interleaving (r : Runner) (executable : String) (arguments : List String)
    {exitCode : Int} (failed : exitCode ≠ 0) (spares : r.patterns.SparesUndefined)
    {outs errs : List (List UInt8)} {m : List String}
    (h : Interleaving ((pieces outs.flatten).map lineText) ((pieces errs.flatten).map lineText) m) :
    (r.perform executable arguments (.plays (chunks outs) (chunks errs) exitCode)).failure =
      some ⟨.command executable arguments (some exitCode) (r.patterns.categorize m), []⟩ ∨
    ∃ out ∈ pieces outs.flatten, ∃ err ∈ pieces errs.flatten, ∃ c d,
      r.patterns.matching? (lineText out) = some c ∧
        r.patterns.matching? (lineText err) = some d ∧ c ≠ d := by
  have append := Interleaving.append ((pieces outs.flatten).map lineText)
    ((pieces errs.flatten).map lineText)
  rw [perform_chunks]
  dsimp only
  rw [if_neg failed]
  by_cases same : r.patterns.categorize ((pieces outs.flatten).map lineText ++
      (pieces errs.flatten).map lineText) = r.patterns.categorize m
  · exact .inl (by rw [same])
  · obtain ⟨x, memberX, y, memberY, c, d, matched⟩ :=
      Patterns.exists_matching_of_ne spares h append same
    obtain ⟨out, inOut, rfl⟩ := List.mem_map.mp memberX
    obtain ⟨err, inErr, rfl⟩ := List.mem_map.mp memberY
    exact .inr ⟨out, inOut, err, inErr, c, d, matched⟩

end Runner

end CollectionRun
