import CollectionRun.Proofs.CommandLine.Collection
import CollectionRun.Proofs.Json.Integers

/-! No reader takes a count of too many digits from a text, so that a configuration that is
loaded can write all its counts (`writable_of_loadConfig`). -/

namespace CollectionRun

namespace Numeral

variable {cs : List Char} {n : Int}

theorem short_of_natValue {m : Nat} (h : natValue? cs = some m) (value : n.natAbs = m) :
    Text.digitCount n ≤ Text.digitLimit := by
  unfold natValue? at h
  split at h
  · cases h
  next digits =>
    split at h
    · cases h
    · cases h
      simp only [Bool.or_eq_true, Bool.not_eq_true', decide_eq_true_eq, not_or, Nat.not_lt,
        List.isEmpty_iff] at digits
      obtain ⟨⟨some, each⟩, few⟩ := digits
      rw [Bool.not_eq_false] at each
      have count := Text.digitCount_le_length (List.all_eq_true.mp each) some value
      exact Nat.le_trans count few

theorem short_of_plain (h : plain? cs = some n) : Text.digitCount n ≤ Text.digitLimit := by
  unfold plain? at h
  split at h
  · obtain ⟨_, value, rfl⟩ := Option.map_eq_some_iff.mp h
    obtain ⟨m, found, ⟨⟩⟩ := Option.bind_eq_some_iff.mp value
    exact short_of_natValue found (Int.natAbs_neg _)
  · obtain ⟨_, value, rfl⟩ := Option.map_eq_some_iff.mp h
    obtain ⟨m, found, ⟨⟩⟩ := Option.bind_eq_some_iff.mp value
    exact short_of_natValue found rfl

theorem short_of_padded (h : padded? cs = some n) : Text.digitCount n ≤ Text.digitLimit := by
  unfold padded? at h
  split at h
  all_goals
    obtain ⟨_, -, plain⟩ := Option.bind_eq_some_iff.mp h
    exact short_of_plain plain

end Numeral

theorem short_of_integerOfText {s : String} {n : Int} (h : integerOfText s = .ok n) :
    Text.digitCount n ≤ Text.digitLimit := by
  unfold integerOfText at h
  split at h
  · cases h
  · split at h
    next found =>
      cases h
      rcases Option.or_eq_some_iff.mp found with plain | ⟨-, padded⟩
      · exact Numeral.short_of_plain plain
      · exact Numeral.short_of_padded padded
    · cases h

theorem short_of_wordOfDecimal {x : Number.Binary64} {n : Int} (h : wordOfDecimal x = .ok n) :
    Text.digitCount n ≤ Text.digitLimit := by
  unfold wordOfDecimal at h
  split at h
  · split at h
    next within =>
      cases h
      rw [Bool.and_eq_true, decide_eq_true_eq, decide_eq_true_eq, wordBound] at within
      have below : n.natAbs < Nat.pow 10 19 := by
        have value : Nat.pow 10 19 = 10000000000000000000 := rfl
        omega
      have count : Text.digitCount n ≤ 19 := (Text.digitCount_le_iff (by decide)).mpr below
      exact Nat.le_trans count (by decide)
    · cases h
  · cases h

theorem short_of_integerOf {v : Json.Value} {n : Int} (short : v.Short) (h : integerOf v = .ok n) :
    Text.digitCount n ≤ Text.digitLimit := by
  cases short with
  | bool b =>
    cases h
    cases b <;> decide
  | integer few =>
    cases h
    exact few
  | decimal x => exact short_of_wordOfDecimal h
  | string s => exact short_of_integerOfText h
  | null | array | object => cases h

namespace Config

variable {w : Surroundings} {ps : Parameters} {c : Config} {s : Setting} {v : Json.Value}

theorem not_overlong_of_readAs {k : Kind} {x : k.Carrier} (short : v.Short)
    (h : s.readAs k v = .ok x) : ¬ k.Overlong x := by
  cases k with
  | count =>
    obtain ⟨given, -⟩ := Setting.readCount_eq_ok_iff.mp (Setting.whole_eq_ok h)
    exact Nat.not_lt_of_le (short_of_integerOf short given)
  | _ => exact id

theorem not_overlong_of_resolve {given? : Option Json.Value} {x : s.kind.Carrier}
    (h : resolve s given? = .ok x) (short : ∀ v ∈ given?, v.Short) : ¬ s.kind.Overlong x := by
  cases given? with
  | none =>
    cases h
    exact writable_standard s
  | some v => exact not_overlong_of_readAs (short v rfl) h

theorem short_of_ofVariables {vars : Variables} {layer : Layer}
    (h : Layer.ofVariables vars = .ok layer) (said : layer s = some v) : v.Short := by
  rcases Layer.ofVariables_cases vars with ⟨_, stopped, -⟩ | ⟨found, -⟩
  · cases stopped.symm.trans h
  · obtain rfl := Except.ok.inj (found.symm.trans h)
    have given := Option.join_eq_some_iff.mp said
    unfold Layer.given? at given
    split at given
    next text _ =>
      cases Variables.ofText?_eq_some_iff.mp given with
      | list kind read set =>
        rw [Json.read?, toOption_eq_some_iff] at read
        exact Json.short_of_read read
      | plain kind => exact .string text
    · cases given

/-- The values of parameters decide, for variables are texts. -/
theorem writable_of_build (built : build w ps = .ok c) (short : ∀ p ∈ ps.entries, p.2.Short) :
    c.Writable := by
  obtain ⟨environment, envFile, foundE, foundF, holds⟩ := build_eq_ok_iff.mp built
  rw [w.environmentLayer_eq, mapError_eq_ok_iff] at foundE
  rw [w.envFileLayer_eq, mapError_eq_ok_iff] at foundF
  refine fun s => not_overlong_of_resolve (holds s) fun v first => ?_
  rcases Option.or_eq_some_iff.mp first with named | ⟨-, later⟩
  · obtain ⟨_, _, _, split, -⟩ := Parameters.ofParameters_eq_some_iff.mp named
    exact short _ (split ▸ List.mem_append_right _ List.mem_cons_self)
  · rcases Option.or_eq_some_iff.mp later with said | ⟨-, said⟩
    · exact short_of_ofVariables foundE said
    · exact short_of_ofVariables foundF said

end Config

namespace CommandLine

theorem short_of_readParameters {files : Files} {path : Path} {ps : Parameters}
    (h : readParameters files path = .ok ps) : ∀ p ∈ ps.entries, p.2.Short := by
  unfold readParameters at h
  split at h
  · cases h
  next members read =>
    cases h
    obtain ⟨cs, -, parsed⟩ := bind_eq_ok_iff.mp read
    split at parsed
    · cases parsed
    next found =>
      cases parsed
      cases Json.short_of_read found with
      | object short => exact short
  · cases h

namespace Arguments

variable {a : Arguments} {files : Files} {environment : Environment} {ps : Parameters} {c : Config}

theorem short_of_parameters (h : a.parameters files = .ok ps) : ∀ p ∈ ps.entries, p.2.Short := by
  obtain ⟨given, file, same⟩ := bind_eq_ok_iff.mp h
  have short : ∀ p ∈ given.entries, p.2.Short := by
    unfold fileParameters at file
    split at file
    · exact short_of_readParameters file
    · cases file
    · cases file
      exact List.forall_mem_nil _
  obtain rfl := Except.ok.inj same
  split
  · exact short
  · intro p member
    rcases OrderedMap.mem_putIn member with rfl | earlier
    · exact .string _
    · exact short p earlier

theorem writable_of_loadConfig (loaded : a.loadConfig files environment = .ok c) : c.Writable := by
  obtain ⟨ps, found, envFile, -, built⟩ := loadConfig_eq_ok_iff.mp loaded
  exact Config.writable_of_build built (short_of_parameters found)

end Arguments

end CommandLine

end CollectionRun
