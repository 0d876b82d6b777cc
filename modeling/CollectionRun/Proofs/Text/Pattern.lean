import Mathlib.Logic.Relation

/-! A pattern may take characters from the front of a text in more than one way: `Takes` holds of
a text and what is left of it if some choice of the alternatives and of the numbers of
repetitions leads from the one to the other. -/

namespace CollectionRun.Text

/-- One character of a class, one pattern behind another, one of two, one repeated any number of
times, or nothing where a pattern does not follow. -/
inductive Pattern where
  | one (p : Char → Bool)
  | seq (a b : Pattern)
  | either (a b : Pattern)
  | many (a : Pattern)
  | notAhead (a : Pattern)

namespace Pattern

def char (c : Char) : Pattern := one (· == c)

def noneOf (cs : List Char) : Pattern := one fun c => !cs.contains c

def any : Pattern := one fun _ => true

def Takes : Pattern → List Char → List Char → Prop
  | one p, cs, rest => ∃ c, p c = true ∧ cs = c :: rest
  | seq a b, cs, rest => ∃ mid, a.Takes cs mid ∧ b.Takes mid rest
  | either a b, cs, rest => a.Takes cs rest ∨ b.Takes cs rest
  | many a, cs, rest => Relation.ReflTransGen a.Takes cs rest
  | notAhead a, cs, rest => rest = cs ∧ ∀ other, ¬ a.Takes cs other

structure Matches (a : Pattern) (source : List Char) (start stop : Nat) : Prop where
  inside : stop ≤ source.length
  takes : a.Takes (source.drop start) (source.drop stop)

theorem takes_char_iff {c : Char} {cs rest : List Char} :
    (char c).Takes cs rest ↔ cs = c :: rest := by
  constructor
  · rintro ⟨d, same, rfl⟩
    rw [beq_iff_eq.mp same]
  · rintro rfl
    exact ⟨c, beq_self_eq_true c, rfl⟩

theorem takes_noneOf_iff {but cs rest : List Char} :
    (noneOf but).Takes cs rest ↔ ∃ c, c ∉ but ∧ cs = c :: rest := by
  simp [noneOf, Takes]

theorem takes_any_iff {cs rest : List Char} : any.Takes cs rest ↔ ∃ c, cs = c :: rest := by
  simp [any, Takes]

/-- A repetition with something behind it has come to its end, or goes on. -/
theorem takes_many_seq_iff {a b : Pattern} {cs rest : List Char} :
    (seq (many a) b).Takes cs rest ↔
      b.Takes cs rest ∨ ∃ mid, a.Takes cs mid ∧ (seq (many a) b).Takes mid rest := by
  constructor
  · rintro ⟨last, repeated, ends⟩
    obtain rfl | ⟨mid, first, later⟩ := Relation.ReflTransGen.cases_head repeated
    · exact .inl ends
    · exact .inr ⟨mid, first, last, later, ends⟩
  · rintro (ends | ⟨mid, first, last, later, ends⟩)
    · exact ⟨cs, .refl, ends⟩
    · exact ⟨last, .head first later, ends⟩

end Pattern

end CollectionRun.Text
