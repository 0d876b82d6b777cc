import CollectionRun.Proofs.Template.Concatenation
import CollectionRun.Proofs.Template.Writing

/-! `scan` reads an action in parts: a double-quoted piece, a back-quoted piece or one other
character at a time, up to the closing braces that stand outside the pieces. `close?_eq_found`
says that an action closes where this scan stops, with the parts before it as its body. -/

namespace CollectionRun.Template

open Text Lexeme

/-- A double-quoted piece as it is written, a back-quoted piece without its marks, or a character
outside of pieces. -/
inductive Part where
  | quoted (spelling : List Char)
  | raw (content : List Char)
  | bare (c : Char)
  deriving DecidableEq, Repr

/-- A double-quoted piece from behind its opening mark, and what follows it. A backslash takes any
character along, a line feed too; a line feed alone is refused. -/
def upToMark : List Char → Option (List Char × List Char)
  | [] => none
  | '"' :: rest => some (['"'], rest)
  | '\\' :: c :: rest => (upToMark rest).map fun (piece, after) => ('\\' :: c :: piece, after)
  | c :: rest =>
    if c = '\n' then none else (upToMark rest).map fun (piece, after) => (c :: piece, after)

namespace Part

def chars : Part → List Char
  | quoted spelling => spelling
  | raw content => '\x60' :: content ++ ['\x60']
  | bare c => [c]

/-- The part at the front, and what follows it. There is none at the end, at closing braces, and
where a piece is opened that is never closed. -/
def first? : List Char → Option (Part × List Char)
  | [] => none
  | '"' :: rest => (upToMark rest).map fun (piece, after) => (quoted ('"' :: piece), after)
  | '\x60' :: rest => (upToBackQuote rest).map fun (content, after) => (raw content, after)
  | '\x7d' :: '\x7d' :: _ => none
  | c :: rest => some (bare c, rest)

end Part

theorem eq_of_upToMark {cs piece after : List Char} (h : upToMark cs = some (piece, after)) :
    cs = piece ++ after := by
  fun_induction upToMark cs generalizing piece after with
  | case1 => contradiction
  | case2 => cases h; rfl
  | case3 c rest ih =>
    obtain ⟨⟨p, a⟩, found, same⟩ := Option.map_eq_some_iff.mp h
    cases same
    rw [ih found]
    rfl
  | case4 => contradiction
  | case5 c rest _ _ _ ih =>
    obtain ⟨⟨p, a⟩, found, same⟩ := Option.map_eq_some_iff.mp h
    cases same
    rw [ih found]
    rfl

theorem eq_of_first? {cs rest : List Char} {part : Part} (h : Part.first? cs = some (part, rest)) :
    cs = part.chars ++ rest ∧ part.chars ≠ [] := by
  unfold Part.first? at h
  split at h
  · cases h
  · obtain ⟨⟨piece, after⟩, found, same⟩ := Option.map_eq_some_iff.mp h
    cases same
    exact ⟨congrArg ('"' :: ·) (eq_of_upToMark found), List.cons_ne_nil _ _⟩
  · obtain ⟨⟨content, after⟩, found, same⟩ := Option.map_eq_some_iff.mp h
    cases same
    refine ⟨?_, List.cons_ne_nil _ _⟩
    rw [(eq_of_upToBackQuote found).1]
    simp [Part.chars]
  · cases h
  · cases h
    exact ⟨rfl, List.cons_ne_nil _ _⟩

theorem length_of_first? {cs rest : List Char} {part : Part}
    (h : Part.first? cs = some (part, rest)) : rest.length < cs.length := by
  obtain ⟨split, present⟩ := eq_of_first? h
  have := List.length_pos_iff.mpr present
  rw [split, List.length_append]
  omega

/-- Where a scan stops: at the closing braces with `after` behind them, at the end of the text, or
where a piece is opened that is never closed. -/
inductive Stop where
  | closed (after : List Char)
  | atEnd
  | unterminated (rest : List Char)
  deriving DecidableEq, Repr

def Stop.at : List Char → Stop
  | [] => atEnd
  | '\x7d' :: '\x7d' :: after => closed after
  | rest => unterminated rest

structure Scan where
  parts : List Part
  stop : Stop
  deriving DecidableEq, Repr

def scan (cs : List Char) : Scan :=
  match _h : Part.first? cs with
  | none => ⟨[], .at cs⟩
  | some (part, rest) => ⟨part :: (scan rest).parts, (scan rest).stop⟩
termination_by cs.length
decreasing_by all_goals exact length_of_first? _h

namespace Scan

def text (s : Scan) : List Char := s.parts.flatMap Part.chars

def found : Scan → Option (List Char × List Char)
  | ⟨parts, .closed after⟩ => some (parts.flatMap Part.chars, after)
  | _ => none

end Scan

theorem scan_of_none {cs : List Char} (h : Part.first? cs = none) : scan cs = ⟨[], .at cs⟩ := by
  rw [scan]
  split
  · rfl
  · next found => rw [h] at found; cases found

theorem scan_of_some {cs rest : List Char} {part : Part} (h : Part.first? cs = some (part, rest)) :
    scan cs = ⟨part :: (scan rest).parts, (scan rest).stop⟩ := by
  rw [scan]
  split
  · next found => rw [h] at found; cases found
  · next found => rw [h] at found; cases found; rfl

theorem found_cons (part : Part) (s : Scan) :
    Scan.found ⟨part :: s.parts, s.stop⟩ = behind part.chars s.found := by
  obtain ⟨parts, stop⟩ := s
  cases stop <;> rfl

theorem found_eq_some_iff {s : Scan} {body after : List Char} :
    s.found = some (body, after) ↔ s.stop = .closed after ∧ s.text = body := by
  obtain ⟨parts, stop⟩ := s
  cases stop <;> simp [Scan.found, Scan.text, and_comm]

/-- Inside of a piece, closing braces are characters like any others. -/
theorem closeFrom_inside {mode next : Mode} {c : Char} {cs : List Char} (inside : mode ≠ .plain)
    (turns : mode.next? c = some next) :
    closeFrom mode (c :: cs) = behind [c] (closeFrom next cs) :=
  closeFrom_cons turns fun plain => absurd plain inside

theorem closeFrom_quoted_eq (cs : List Char) :
    closeFrom .quoted cs =
      (upToMark cs).bind fun (piece, after) => behind piece (closeFrom .plain after) := by
  have inside : Mode.quoted ≠ .plain := by decide
  fun_induction upToMark cs with
  | case1 => rfl
  | case2 rest => exact closeFrom_inside inside (by decide)
  | case3 c rest ih =>
    have escapes : Mode.quoted.next? '\\' = some .escaped := by decide
    have resumes : Mode.escaped.next? c = some .quoted := rfl
    rw [closeFrom_inside inside escapes, closeFrom_inside (by decide) resumes, ih]
    cases upToMark rest with
    | none => rfl
    | some found =>
      show behind ['\\'] (behind [c] (behind found.1 _)) = behind ('\\' :: c :: found.1) _
      rw [behind_behind, behind_behind]
      rfl
  | case4 rest =>
    rw [closeFrom_step fun plain => absurd plain inside]
    rfl
  | case5 c rest mark escape bare ih =>
    cases rest with
    | nil =>
      rw [closeFrom_step fun plain => absurd plain inside]
      cases Mode.quoted.next? c with
      | none => rfl
      | some next => cases next <;> rfl
    | cons d rest =>
      have turns : Mode.quoted.next? c = some .quoted := by
        rw [Mode.next?, if_neg bare, if_neg mark, if_neg fun back => escape _ _ back rfl]
      rw [closeFrom_inside inside turns, ih]
      cases upToMark (d :: rest) with
      | none => rfl
      | some found =>
        show behind [c] (behind found.1 _) = behind (c :: found.1) _
        rw [behind_behind]
        rfl

theorem upToBackQuote_cons (c : Char) (cs : List Char) :
    upToBackQuote (c :: cs) = if c = '\x60' then some ([], cs)
      else (upToBackQuote cs).map fun (content, after) => (c :: content, after) := by
  by_cases back : c = '\x60'
  · rw [if_pos back]
    simp [upToBackQuote, back]
  · have goes : (c != '\x60') = true := by simpa using back
    have dropped := List.dropWhile_cons_of_pos (p := (· != '\x60')) (l := cs) goes
    have taken := List.takeWhile_cons_of_pos (p := (· != '\x60')) (l := cs) goes
    rw [if_neg back, upToBackQuote, upToBackQuote, dropped, taken]
    cases cs.dropWhile (· != '\x60') <;> rfl

theorem closeFrom_raw_eq (cs : List Char) :
    closeFrom .raw cs = (upToBackQuote cs).bind fun (content, after) =>
      behind (content ++ ['\x60']) (closeFrom .plain after) := by
  induction cs with
  | nil => rfl
  | cons c cs ih =>
    rw [upToBackQuote_cons]
    by_cases back : c = '\x60'
    · rw [if_pos back, back]
      exact closeFrom_inside (by decide) (by decide)
    · have turns : Mode.raw.next? c = some .raw := by rw [Mode.next?, if_neg back]
      rw [if_neg back, closeFrom_inside (by decide) turns, ih]
      cases upToBackQuote cs with
      | none => rfl
      | some found => exact behind_behind [c] (found.1 ++ ['\x60']) _

theorem closeFrom_mark (rest : List Char) :
    closeFrom .plain ('"' :: rest) = behind ['"'] (closeFrom .quoted rest) :=
  closeFrom_cons (by decide) fun _ => not_braces_of_ne (by decide) rest

theorem closeFrom_backQuote (rest : List Char) :
    closeFrom .plain ('\x60' :: rest) = behind ['\x60'] (closeFrom .raw rest) :=
  closeFrom_cons (by decide) fun _ => not_braces_of_ne (by decide) rest

theorem closeFrom_of_first? {cs rest : List Char} {part : Part}
    (h : Part.first? cs = some (part, rest)) :
    closeFrom .plain cs = behind part.chars (closeFrom .plain rest) := by
  unfold Part.first? at h
  split at h
  · cases h
  · next later =>
    obtain ⟨⟨piece, after⟩, found, same⟩ := Option.map_eq_some_iff.mp h
    cases same
    rw [closeFrom_mark, closeFrom_quoted_eq, found]
    exact behind_behind _ _ _
  · next later =>
    obtain ⟨⟨content, after⟩, found, same⟩ := Option.map_eq_some_iff.mp h
    cases same
    rw [closeFrom_backQuote, closeFrom_raw_eq, found]
    exact behind_behind _ _ _
  · cases h
  · next c later mark back braces =>
    cases h
    refine closeFrom_cons ?_ ?_
    · rw [Mode.next?, if_neg mark, if_neg back]
    · rintro - ⟨after, same⟩
      obtain ⟨rfl, tail⟩ := List.cons.inj same
      exact braces _ rfl tail.symm

theorem closeFrom_of_none {cs : List Char} (h : Part.first? cs = none) :
    closeFrom .plain cs = Scan.found ⟨[], .at cs⟩ := by
  unfold Part.first? at h
  split at h
  · rfl
  · rw [closeFrom_mark, closeFrom_quoted_eq, Option.map_eq_none_iff.mp h]
    rfl
  · rw [closeFrom_backQuote, closeFrom_raw_eq, Option.map_eq_none_iff.mp h]
    rfl
  · next after => exact closeFrom_closingBraces after
  · cases h

theorem close?_eq_found (cs : List Char) : close? cs = (scan cs).found := by
  rw [close?]
  fun_induction scan cs with
  | case1 cs none => exact closeFrom_of_none none
  | case2 cs part rest first ih => rw [closeFrom_of_first? first, ih, found_cons]

end CollectionRun.Template
