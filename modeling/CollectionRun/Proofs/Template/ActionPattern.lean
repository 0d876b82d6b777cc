import CollectionRun.Proofs.Template.Parts
import CollectionRun.Proofs.Text.Pattern

/-! What stands between the opening braces of an action and its end is also described by a
pattern with nested repetitions, which leave choices. The choices do not matter
(`action_matches`). -/

namespace CollectionRun.Template

open Text Lexeme

namespace ActionPattern

open Pattern

def quotedChar : Pattern := .either (noneOf ['"', '\\', '\n']) (.seq (char '\\') any)

def quoted : Pattern := .seq (char '"') (.seq (.many quotedChar) (char '"'))

def raw : Pattern := .seq (char '\x60') (.seq (.many (noneOf ['\x60'])) (char '\x60'))

def bare : Pattern :=
  .either (noneOf ['"', '\x60', '\x7d']) (.seq (char '\x7d') (.notAhead (char '\x7d')))

def part : Pattern := .either quoted (.either raw bare)

def body : Pattern := .many part

def closing : Pattern := .seq (char '\x7d') (char '\x7d')

def action : Pattern := .seq body closing

theorem takes_quotedChar_iff {cs rest : List Char} :
    quotedChar.Takes cs rest ↔
      (∃ c, cs = '\\' :: c :: rest) ∨ ∃ c, cs = c :: rest ∧ c ≠ '\n' ∧ c ≠ '"' ∧ c ≠ '\\' := by
  have escape : (Pattern.seq (char '\\') any).Takes cs rest ↔ ∃ c, cs = '\\' :: c :: rest := by
    constructor
    · rintro ⟨mid, back, taken⟩
      obtain ⟨c, rfl⟩ := takes_any_iff.mp taken
      exact ⟨c, takes_char_iff.mp back⟩
    · rintro ⟨c, rfl⟩
      exact ⟨c :: rest, takes_char_iff.mpr rfl, takes_any_iff.mpr ⟨c, rfl⟩⟩
  have plain : (noneOf ['"', '\\', '\n']).Takes cs rest ↔
      ∃ c, cs = c :: rest ∧ c ≠ '\n' ∧ c ≠ '"' ∧ c ≠ '\\' := by
    rw [takes_noneOf_iff]
    refine exists_congr fun c => ?_
    simp only [List.mem_cons, List.not_mem_nil, or_false, not_or]
    tauto
  exact (or_congr plain escape).trans or_comm

/-- At each character only one alternative of the pattern goes on, and it does not go on behind a
mark. -/
theorem takes_upToMark_iff {cs rest : List Char} :
    (Pattern.seq (.many quotedChar) (char '"')).Takes cs rest ↔
      ∃ piece, upToMark cs = some (piece, rest) := by
  fun_induction upToMark cs with
  | case1 | case2 | case4 =>
    rw [takes_many_seq_iff]
    simp [takes_char_iff, takes_quotedChar_iff]
  | case3 c later ih =>
    rw [takes_many_seq_iff]
    simp [takes_char_iff, takes_quotedChar_iff, ih]
  | case5 c later mark escape bare ih =>
    rw [takes_many_seq_iff]
    by_cases back : c = '\\'
    · cases later with
      | nil => simp [takes_char_iff, takes_quotedChar_iff, back, upToMark]
      | cons d later => exact absurd rfl (escape d later back)
    · have mark : c ≠ '"' := mark
      simp [takes_char_iff, takes_quotedChar_iff, ih, mark, bare, back]

theorem takes_quoted_iff {cs rest : List Char} :
    quoted.Takes cs rest ↔
      ∃ later piece, cs = '"' :: later ∧ upToMark later = some (piece, rest) := by
  constructor
  · rintro ⟨later, mark, taken⟩
    obtain ⟨piece, found⟩ := takes_upToMark_iff.mp taken
    exact ⟨later, piece, takes_char_iff.mp mark, found⟩
  · rintro ⟨later, piece, rfl, found⟩
    exact ⟨later, takes_char_iff.mpr rfl, takes_upToMark_iff.mpr ⟨piece, found⟩⟩

theorem takes_upToBackQuote_iff {cs rest : List Char} :
    (Pattern.seq (.many (noneOf ['\x60'])) (char '\x60')).Takes cs rest ↔
      ∃ content, upToBackQuote cs = some (content, rest) := by
  induction cs with
  | nil =>
    rw [takes_many_seq_iff]
    simp [takes_char_iff, takes_noneOf_iff, upToBackQuote]
  | cons c cs ih =>
    rw [takes_many_seq_iff, upToBackQuote_cons]
    by_cases back : c = '\x60'
    · simp [takes_char_iff, takes_noneOf_iff, back]
    · simp [takes_char_iff, takes_noneOf_iff, back, ih]

theorem takes_raw_iff {cs rest : List Char} :
    raw.Takes cs rest ↔
      ∃ later content, cs = '\x60' :: later ∧ upToBackQuote later = some (content, rest) := by
  constructor
  · rintro ⟨later, mark, taken⟩
    obtain ⟨content, found⟩ := takes_upToBackQuote_iff.mp taken
    exact ⟨later, content, takes_char_iff.mp mark, found⟩
  · rintro ⟨later, content, rfl, found⟩
    exact ⟨later, takes_char_iff.mpr rfl, takes_upToBackQuote_iff.mpr ⟨content, found⟩⟩

theorem takes_bare_iff {cs rest : List Char} :
    bare.Takes cs rest ↔
      ∃ c, cs = c :: rest ∧ c ≠ '"' ∧ c ≠ '\x60' ∧ ¬ closingBraces <+: c :: rest := by
  constructor
  · rintro (other | ⟨mid, brace, rfl, alone⟩)
    · obtain ⟨c, none, rfl⟩ := takes_noneOf_iff.mp other
      simp only [List.mem_cons, List.not_mem_nil, or_false, not_or] at none
      obtain ⟨mark, back, brace⟩ := none
      exact ⟨c, rfl, mark, back, not_braces_of_ne brace rest⟩
    · refine ⟨'\x7d', takes_char_iff.mp brace, by decide, by decide, ?_⟩
      rintro ⟨tail, same⟩
      exact alone tail (takes_char_iff.mpr (List.cons.inj same).2.symm)
  · rintro ⟨c, rfl, mark, back, braces⟩
    by_cases brace : c = '\x7d'
    · subst brace
      refine .inr ⟨rest, takes_char_iff.mpr rfl, rfl, fun tail follows => braces ⟨tail, ?_⟩⟩
      rw [takes_char_iff.mp follows]
      rfl
    · exact .inl (takes_noneOf_iff.mpr ⟨c, by simp [mark, back, brace], rfl⟩)

theorem takes_part_iff {cs rest : List Char} :
    part.Takes cs rest ↔ ∃ p, Part.first? cs = some (p, rest) := by
  have alternatives : part.Takes cs rest ↔
      quoted.Takes cs rest ∨ raw.Takes cs rest ∨ bare.Takes cs rest := Iff.rfl
  rw [alternatives, takes_quoted_iff, takes_raw_iff, takes_bare_iff]
  unfold Part.first?
  split
  · simp
  · next later => simp
  · next later => simp
  · next later =>
    refine iff_of_false ?_ nofun
    rintro (⟨_, _, same, _⟩ | ⟨_, _, same, _⟩ | ⟨_, same, _, _, open_⟩)
    · exact absurd (List.cons.inj same).1 (by decide)
    · exact absurd (List.cons.inj same).1 (by decide)
    · exact open_ ⟨later, same⟩
  · next c later mark back braces =>
    have open_ : ¬ closingBraces <+: c :: later := by
      rintro ⟨after, same⟩
      obtain ⟨rfl, tail⟩ := List.cons.inj same
      exact braces _ rfl tail.symm
    constructor
    · rintro (⟨_, _, same, _⟩ | ⟨_, _, same, _⟩ | ⟨_, same, _⟩)
      · exact absurd (List.cons.inj same).1 mark
      · exact absurd (List.cons.inj same).1 back
      · exact ⟨.bare c, by rw [(List.cons.inj same).2]⟩
    · rintro ⟨p, found⟩
      cases found
      exact .inr (.inr ⟨c, rfl, mark, back, open_⟩)

theorem takes_closing_iff {cs rest : List Char} :
    closing.Takes cs rest ↔ cs = closingBraces ++ rest := by
  constructor
  · rintro ⟨mid, first, second⟩
    rw [takes_char_iff.mp first, takes_char_iff.mp second]
    rfl
  · rintro rfl
    exact ⟨'\x7d' :: rest, takes_char_iff.mpr rfl, takes_char_iff.mpr rfl⟩

theorem at_eq_closed_iff {cs rest : List Char} :
    Stop.at cs = .closed rest ↔ cs = closingBraces ++ rest := by
  constructor
  · intro stops
    unfold Stop.at at stops
    split at stops
    · cases stops
    · cases stops
      rfl
    · cases stops
  · rintro rfl
    rfl

/-- By parts: where there is one, the pattern takes it and does not end, and where there is none, it
can only end. -/
theorem takes_action_iff {cs rest : List Char} :
    action.Takes cs rest ↔ (scan cs).stop = .closed rest := by
  fun_induction scan cs with
  | case1 cs none =>
    rw [action, body, takes_many_seq_iff, takes_closing_iff, at_eq_closed_iff]
    simp [takes_part_iff, none]
  | case2 cs p later first ih =>
    have open_ : ¬ closing.Takes cs rest := by
      intro ends
      rw [takes_closing_iff.mp ends] at first
      cases first
    rw [action, body, takes_many_seq_iff, ← ih]
    constructor
    · rintro (ends | ⟨mid, taken, ends⟩)
      · exact absurd ends open_
      · obtain ⟨q, same⟩ := takes_part_iff.mp taken
        rw [first] at same
        cases same
        exact ends
    · intro ends
      exact .inr ⟨later, takes_part_iff.mpr ⟨p, first⟩, ends⟩

theorem text_append_of_closed {cs after : List Char} (h : (scan cs).stop = .closed after) :
    cs = (scan cs).text ++ (closingBraces ++ after) ∧ close? cs = some ((scan cs).text, after) := by
  have closes : close? cs = some ((scan cs).text, after) := by
    rw [close?_eq_found]
    exact found_eq_some_iff.mpr ⟨h, rfl⟩
  refine ⟨?_, closes⟩
  rw [← List.append_assoc]
  exact eq_of_closeFrom closes

theorem exists_rest (cs : List Char) : ∃ rest, cs = (scan cs).text ++ rest ∧
    Part.first? rest = none ∧ (scan cs).stop = .at rest := by
  fun_induction scan cs with
  | case1 cs none => exact ⟨cs, rfl, none, rfl⟩
  | case2 cs p later first ih =>
    obtain ⟨rest, split, none, stops⟩ := ih
    refine ⟨rest, ?_, none, stops⟩
    calc
      cs = p.chars ++ later := (eq_of_first? first).1
      _ = p.chars ++ ((scan later).text ++ rest) := congrArg (p.chars ++ ·) split
      _ = p.chars ++ (scan later).text ++ rest := (List.append_assoc _ _ _).symm

/-- A piece is opened, and there is no complete one. -/
structure Unterminated (rest : List Char) : Prop where
  opens : rest.head? = some '"' ∨ rest.head? = some '\x60'
  incomplete : ∀ after, ¬ quoted.Takes rest after ∧ ¬ raw.Takes rest after

theorem unterminated_of_none {rest : List Char} (none : Part.first? rest = none)
    (present : rest ≠ []) (open_ : ¬ closingBraces <+: rest) : Unterminated rest := by
  have incomplete : ∀ after, ¬ quoted.Takes rest after ∧ ¬ raw.Takes rest after := by
    intro after
    have stuck : ¬ part.Takes rest after := by
      rw [takes_part_iff, none]
      exact nofun
    exact ⟨fun taken => stuck (.inl taken), fun taken => stuck (.inr (.inl taken))⟩
  refine ⟨?_, incomplete⟩
  unfold Part.first? at none
  split at none
  · exact absurd rfl present
  · exact .inl rfl
  · exact .inr rfl
  · exact absurd ⟨_, rfl⟩ open_
  · cases none

theorem stop_cases (cs : List Char) :
    (∃ after, (scan cs).stop = .closed after) ∨ (scan cs).stop = .atEnd ∧ cs = (scan cs).text ∨
      ∃ rest, (scan cs).stop = .unterminated rest ∧ cs = (scan cs).text ++ rest ∧
        Unterminated rest := by
  obtain ⟨rest, split, none, stops⟩ := exists_rest cs
  by_cases braces : closingBraces <+: rest
  · obtain ⟨after, rfl⟩ := braces
    exact .inl ⟨after, stops⟩
  · by_cases present : rest = []
    · subst present
      rw [List.append_nil] at split
      exact .inr (.inl ⟨stops, split⟩)
    · have unterminated : Stop.at rest = .unterminated rest := by
        unfold Stop.at
        split
        · exact absurd rfl present
        · exact absurd ⟨_, rfl⟩ braces
        · rfl
      exact .inr (.inr ⟨rest, stops.trans unterminated, split,
        unterminated_of_none none present braces⟩)

theorem drop_of_split {source text after : List Char} {start : Nat}
    (split : source.drop start = text ++ (closingBraces ++ after)) :
    start + text.length + 2 + after.length = source.length ∧
      source.drop (start + text.length) = closingBraces ++ after ∧
      source.drop (start + text.length + 2) = after := by
  have lengths := congrArg List.length split
  simp only [List.length_append, List.length_drop, closingBraces, List.length_cons,
    List.length_nil] at lengths
  have braces : source.drop (start + text.length) = closingBraces ++ after := by
    rw [← List.drop_drop, split, List.drop_left]
  refine ⟨by omega, braces, ?_⟩
  rw [← List.drop_drop, braces]
  rfl

theorem matches_action_iff {source : List Char} {start stop : Nat} :
    action.Matches source start stop ↔
      (∃ after, (scan (source.drop start)).stop = .closed after) ∧
        stop = start + (scan (source.drop start)).text.length + 2 := by
  constructor
  · rintro ⟨inside, takes⟩
    have closed := takes_action_iff.mp takes
    obtain ⟨sum, -⟩ := drop_of_split (text_append_of_closed closed).1
    rw [List.length_drop] at sum
    exact ⟨⟨_, closed⟩, by omega⟩
  · rintro ⟨⟨after, closed⟩, rfl⟩
    obtain ⟨sum, -, behind⟩ := drop_of_split (text_append_of_closed closed).1
    refine ⟨by omega, ?_⟩
    rw [behind]
    exact takes_action_iff.mpr closed

theorem close?_eq_some_iff {source inner after : List Char} {start : Nat} :
    close? (source.drop start) = some (inner, after) ↔
      ∃ mid stop, body.Matches source start mid ∧ closing.Matches source mid stop ∧
        inner = source.extract start mid ∧ after = source.drop stop := by
  constructor
  · intro closes
    have split := eq_of_closeFrom closes
    rw [List.append_assoc] at split
    obtain ⟨sum, braces, behind⟩ := drop_of_split split
    rw [close?_eq_found, found_eq_some_iff] at closes
    obtain ⟨_, taken, ends⟩ := takes_action_iff.mpr closes.1
    rw [takes_closing_iff.mp ends, ← braces] at taken
    rw [takes_closing_iff.mp ends, ← braces, ← behind] at ends
    refine ⟨_, _, ⟨by omega, taken⟩, ⟨by omega, ends⟩, ?_, behind.symm⟩
    rw [List.extract_eq_take_drop, split]
    exact (List.take_left' (by omega)).symm
  · rintro ⟨mid, stop, first, last, rfl, rfl⟩
    have closed := takes_action_iff.mp ⟨_, first.takes, last.takes⟩
    obtain ⟨split, closes⟩ := text_append_of_closed closed
    generalize (scan (source.drop start)).text = text at split closes
    have braces : source.drop mid = [] ++ (closingBraces ++ source.drop stop) :=
      takes_closing_iff.mp last.takes
    obtain ⟨sum, -⟩ := drop_of_split split
    obtain ⟨sum', -⟩ := drop_of_split braces
    have length : text.length = mid - start := by
      rw [List.length_nil] at sum'
      omega
    have taken : source.extract start mid = text := by
      rw [List.extract_eq_take_drop, split, ← length]
      exact List.take_left' rfl
    rw [taken, closes]

/-- A match of the pattern that begins at `start` ends behind the closing braces at which the scan
of the parts stops, so there is one end at most. An action closes where there is a match, and its
body is what the pattern takes before the braces, whatever choices lead there. If the scan finds no
braces, it has come to the end of the source or to a piece that is not complete. -/
theorem action_matches (source : List Char) (start : Nat) :
    (∀ stop, action.Matches source start stop ↔
      (∃ after, (scan (source.drop start)).stop = .closed after) ∧
        stop = start + (scan (source.drop start)).text.length + 2) ∧
    (∀ stop stop', action.Matches source start stop → action.Matches source start stop' →
      stop = stop') ∧
    (∀ inner after, close? (source.drop start) = some (inner, after) ↔
      ∃ mid stop, body.Matches source start mid ∧ closing.Matches source mid stop ∧
        inner = source.extract start mid ∧ after = source.drop stop) ∧
    ((∀ stop, ¬ action.Matches source start stop) ↔
      (scan (source.drop start)).stop = .atEnd ∧
          source.drop start = (scan (source.drop start)).text ∨
        ∃ rest, (scan (source.drop start)).stop = .unterminated rest ∧
          source.drop start = (scan (source.drop start)).text ++ rest ∧ Unterminated rest) := by
  refine ⟨fun stop => matches_action_iff, ?_, fun inner after => close?_eq_some_iff, ?_⟩
  · intro stop stop' first second
    rw [(matches_action_iff.mp first).2, (matches_action_iff.mp second).2]
  · constructor
    · intro unmatched
      refine (stop_cases (source.drop start)).resolve_left fun closed => ?_
      exact unmatched _ (matches_action_iff.mpr ⟨closed, rfl⟩)
    · intro stuck stop ends
      obtain ⟨⟨after, closed⟩, -⟩ := matches_action_iff.mp ends
      obtain ⟨ended, -⟩ | ⟨rest, ended, -⟩ := stuck
      · rw [closed] at ended
        cases ended
      · rw [closed] at ended
        cases ended

end ActionPattern

end CollectionRun.Template
