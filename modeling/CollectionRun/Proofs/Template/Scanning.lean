import CollectionRun.Template.Segment
import CollectionRun.Proofs.Template.Spelling

/-! An action opens at the braces that no text before them has, and closes behind a body that the
scan passes (`Passes`), whatever text follows it. -/

namespace CollectionRun.Template

def openingBraces : List Char := ['\x7b', '\x7b']

def closingBraces : List Char := ['\x7d', '\x7d']

theorem open?_cons {c : Char} {cs : List Char} (h : ¬ openingBraces <+: c :: cs) :
    open? (c :: cs) = (c :: (open? cs).1, (open? cs).2) := by
  rw [open?.eq_3 c cs fun rest hc hcs => h ⟨rest, by rw [hc, hcs]; rfl⟩]

theorem open?_append {text : List Char} (plain : ¬ openingBraces <:+: text)
    (ends : text.getLast? ≠ some '\x7b') (rest : List Char) :
    open? (text ++ (openingBraces ++ rest)) = (text, some rest) := by
  induction text with
  | nil => rfl
  | cons c text ih =>
    rw [List.infix_cons_iff, not_or] at plain
    have front : ¬ openingBraces <+: c :: (text ++ (openingBraces ++ rest)) := by
      rintro ⟨after, same⟩
      cases text with
      | nil =>
        have := (List.cons.inj same).1
        exact ends (by rw [← this]; rfl)
      | cons d text =>
        obtain ⟨hc, tail⟩ := List.cons.inj same
        exact plain.1 ⟨text, by rw [← hc, ← (List.cons.inj tail).1]; rfl⟩
    have later : text.getLast? ≠ some '\x7b' := by
      intro last
      rw [List.getLast?_cons, last] at ends
      exact ends rfl
    rw [List.cons_append, open?_cons front, ih plain.2 later]

theorem open?_of_plain {text : List Char} (plain : ¬ openingBraces <:+: text) :
    open? text = (text, none) := by
  induction text with
  | nil => rfl
  | cons c text ih =>
    rw [List.infix_cons_iff, not_or] at plain
    rw [open?_cons plain.1, ih plain.2]

def behind (cs : List Char) (found : Option (List Char × List Char)) :
    Option (List Char × List Char) :=
  found.map fun (body, after) => (cs ++ body, after)

theorem behind_behind (a b : List Char) (found : Option (List Char × List Char)) :
    behind a (behind b found) = behind (a ++ b) found := by
  cases found <;> simp [behind]

theorem not_braces_of_ne {c : Char} (h : c ≠ '\x7d') (cs : List Char) :
    ¬ closingBraces <+: c :: cs := by
  rintro ⟨after, same⟩
  exact h (List.cons.inj same).1.symm

theorem not_braces_concat_of_ne {c : Char} (h : c ≠ '\x7d') (cs : List Char) :
    ¬ closingBraces <:+ cs ++ [c] := by
  rintro ⟨before, same⟩
  have last := congrArg List.getLast? same
  rw [closingBraces, List.getLast?_append_cons, List.getLast?_concat] at last
  exact h (Option.some.inj last).symm

theorem closeFrom_step {mode : Mode} {c : Char} {cs : List Char}
    (h : mode = .plain → ¬ closingBraces <+: c :: cs) :
    closeFrom mode (c :: cs) = (mode.next? c).bind fun next => behind [c] (closeFrom next cs) := by
  rw [closeFrom.eq_3 mode c cs fun rest hm hc hcs => h hm ⟨rest, by rw [hc, hcs]; rfl⟩]
  cases mode.next? c with
  | none => rfl
  | some next =>
    show (closeFrom next cs).bind _ = behind [c] (closeFrom next cs)
    cases closeFrom next cs <;> rfl

theorem closeFrom_cons {mode next : Mode} {c : Char} {cs : List Char}
    (turns : mode.next? c = some next) (h : mode = .plain → ¬ closingBraces <+: c :: cs) :
    closeFrom mode (c :: cs) = behind [c] (closeFrom next cs) := by
  rw [closeFrom_step h, turns]
  rfl

theorem closeFrom_closingBraces (rest : List Char) :
    closeFrom .plain (closingBraces ++ rest) = some ([], rest) := by
  rw [show closingBraces ++ rest = '\x7d' :: '\x7d' :: rest from rfl, closeFrom]

/-- The mode behind some characters; none if a line feed breaks a quoted piece. -/
def Mode.after? (mode : Mode) (cs : List Char) : Option Mode := cs.foldlM Mode.next? mode

/-- Characters without closing braces are taken as they come. -/
theorem closeFrom_append {cs : List Char} (braces : ¬ closingBraces <:+: cs)
    (ends : cs.getLast? ≠ some '\x7d') (mode : Mode) (rest : List Char) :
    closeFrom mode (cs ++ rest) =
      (mode.after? cs).bind fun next => behind cs (closeFrom next rest) := by
  induction cs generalizing mode with
  | nil =>
    show closeFrom mode rest = behind [] (closeFrom mode rest)
    cases h : closeFrom mode rest <;> rfl
  | cons c cs ih =>
    rw [List.infix_cons_iff, not_or] at braces
    have later : cs.getLast? ≠ some '\x7d' := by
      intro last
      rw [List.getLast?_cons, last] at ends
      exact ends rfl
    have front : ¬ closingBraces <+: c :: (cs ++ rest) := by
      rintro ⟨after, same⟩
      cases cs with
      | nil => exact ends (by rw [← (List.cons.inj same).1]; rfl)
      | cons d cs =>
        obtain ⟨hc, tail⟩ := List.cons.inj same
        exact braces.1 ⟨cs, by rw [← hc, ← (List.cons.inj tail).1]; rfl⟩
    rw [List.cons_append, closeFrom_step fun _ => front, Mode.after?, List.foldlM_cons]
    cases mode.next? c with
    | none => rfl
    | some next =>
      show behind [c] (closeFrom next (cs ++ rest)) = (next.after? cs).bind _
      rw [ih braces.2 later]
      cases next.after? cs with
      | none => rfl
      | some last => exact behind_behind _ _ _

theorem after?_of_unmarked {cs : List Char} (mark : '"' ∉ cs) (back : '\x60' ∉ cs) :
    Mode.plain.after? cs = some .plain := by
  induction cs with
  | nil => rfl
  | cons c cs ih =>
    rw [List.mem_cons, not_or] at mark back
    have turns : Mode.plain.next? c = some .plain := by
      rw [Mode.next?, if_neg (Ne.symm mark.1), if_neg (Ne.symm back.1)]
    rw [Mode.after?, List.foldlM_cons, turns]
    exact ih mark.2 back.2

/-- A scan outside quotes passes `cs` whatever follows, and is outside quotes behind it. -/
def Passes (cs : List Char) : Prop :=
  ∀ rest, closeFrom .plain (cs ++ rest) = behind cs (closeFrom .plain rest)

theorem Passes.append {a b : List Char} (ha : Passes a) (hb : Passes b) : Passes (a ++ b) :=
  fun rest => by rw [List.append_assoc, ha, hb, behind_behind]

theorem passes_of_plain {cs : List Char} (mark : '"' ∉ cs) (back : '\x60' ∉ cs)
    (braces : ¬ closingBraces <:+: cs) (ends : cs.getLast? ≠ some '\x7d') : Passes cs := by
  intro rest
  rw [closeFrom_append braces ends, after?_of_unmarked mark back]
  rfl

theorem passes_of_forall {cs : List Char}
    (h : ∀ c ∈ cs, c ≠ '"' ∧ c ≠ '\x60' ∧ c ≠ '\x7d') : Passes cs := by
  refine passes_of_plain (fun m => (h _ m).1 rfl) (fun m => (h _ m).2.1 rfl) ?_ ?_
  · intro inside
    exact (h _ (inside.subset (by simp [closingBraces]))).2.2 rfl
  · intro last
    exact (h _ (List.mem_of_getLast? last)).2.2 rfl

theorem closeFrom_quoted {piece : List Char} (h : QuotedRest piece) (rest : List Char) :
    closeFrom .quoted (piece ++ rest) = behind piece (closeFrom .plain rest) := by
  induction h with
  | mark => exact closeFrom_cons (by decide) nofun
  | @escape c cs bare _ ih =>
    have escapes : Mode.quoted.next? '\\' = some .escaped := by decide
    have resumes : Mode.escaped.next? c = some .quoted := rfl
    rw [List.cons_append, List.cons_append, closeFrom_cons escapes nofun,
      closeFrom_cons resumes nofun, ih, behind_behind, behind_behind]
    rfl
  | @plain c cs bare mark escape _ ih =>
    have turns : Mode.quoted.next? c = some .quoted := by
      rw [Mode.next?, if_neg bare, if_neg mark, if_neg escape]
    rw [List.cons_append, closeFrom_cons turns nofun, ih, behind_behind]
    rfl

theorem closeFrom_raw {content : List Char} (plain : '\x60' ∉ content) (rest : List Char) :
    closeFrom .raw (content ++ '\x60' :: rest) =
      behind (content ++ ['\x60']) (closeFrom .plain rest) := by
  induction content with
  | nil => exact closeFrom_cons (by decide) nofun
  | cons c content ih =>
    rw [List.mem_cons, not_or] at plain
    have turns : Mode.raw.next? c = some .raw := by
      rw [Mode.next?, if_neg (Ne.symm plain.1)]
    rw [List.cons_append, closeFrom_cons turns nofun, ih plain.2, behind_behind]
    rfl

theorem close?_append {body : List Char} (h : Passes body) (rest : List Char) :
    close? (body ++ (closingBraces ++ rest)) = some (body, rest) := by
  rw [close?, h, closeFrom_closingBraces]
  simp [behind]

theorem passes_chars {item : Item} (written : item.WellFormed) : Passes item.chars := by
  obtain ⟨piece, shape, quoted⟩ | ⟨content, shape, plain⟩ | ⟨-, all⟩ := chars_of_wellFormed written
  · intro rest
    have opens : Mode.plain.next? '"' = some .quoted := by decide
    rw [shape, List.cons_append, closeFrom_cons opens fun _ => not_braces_of_ne (by decide) _,
      closeFrom_quoted quoted, behind_behind]
    rfl
  · intro rest
    have opens : Mode.plain.next? '\x60' = some .raw := by decide
    rw [shape, List.append_assoc, List.cons_append, List.singleton_append,
      closeFrom_cons opens fun _ => not_braces_of_ne (by decide) _, closeFrom_raw plain,
      behind_behind]
    rfl
  · refine passes_of_forall fun c hc => ?_
    obtain name | rfl | rfl := all c hc
    · refine ⟨?_, ?_, ?_⟩ <;> rintro rfl <;> simp [Lexeme.isNameChar, Lexeme.startsName] at name
    · decide
    · decide

theorem passes_of_blank {gap : List Char} (blank : ∀ c ∈ gap, Text.isBlank c = true) :
    Passes gap := by
  refine passes_of_forall fun c hc => ?_
  have := blank c hc
  refine ⟨?_, ?_, ?_⟩ <;> rintro rfl <;> simp [Text.isBlank] at this

theorem Spelled.passes {items : List Item} {cs : List Char} (h : Spelled items cs) : Passes cs := by
  induction h with
  | last written => exact passes_chars written
  | more written blank _ _ ih =>
    exact ((passes_chars written).append (passes_of_blank blank)).append ih

def opened (line : Nat) : Option (List Char × List Char) → List Segment
  | none => [.unclosed line]
  | some (body, after) => .body body line :: segmentsFrom (line + body.count '\n') after

theorem segmentsFrom_of_none (line : Nat) {cs text : List Char} (h : open? cs = (text, none)) :
    segmentsFrom line cs = [.text text] := by
  rw [segmentsFrom]
  split
  · next found => rw [h] at found; cases found; rfl
  · next found => rw [h] at found; cases found

theorem segmentsFrom_of_some (line : Nat) {cs text rest : List Char}
    (h : open? cs = (text, some rest)) :
    segmentsFrom line cs = .text text :: opened (line + text.count '\n') (close? rest) := by
  rw [segmentsFrom]
  split
  · next found => rw [h] at found; cases found
  · next found =>
    rw [h] at found
    cases found
    split <;> next closes => rw [closes, opened]

theorem segmentsFrom_of_plain (line : Nat) {text : List Char}
    (plain : ¬ openingBraces <:+: text) : segmentsFrom line text = [.text text] :=
  segmentsFrom_of_none line (open?_of_plain plain)

theorem segmentsFrom_open (line : Nat) {text : List Char} (plain : ¬ openingBraces <:+: text)
    (ends : text.getLast? ≠ some '\x7b') (rest : List Char) :
    segmentsFrom line (text ++ (openingBraces ++ rest)) =
      .text text :: opened (line + text.count '\n') (close? rest) :=
  segmentsFrom_of_some line (open?_append plain ends rest)

theorem segmentsFrom_append (line : Nat) {text body : List Char}
    (plain : ¬ openingBraces <:+: text) (ends : text.getLast? ≠ some '\x7b') (passes : Passes body)
    (rest : List Char) :
    segmentsFrom line (text ++ (openingBraces ++ (body ++ (closingBraces ++ rest)))) =
      .text text :: .body body (line + text.count '\n') ::
        segmentsFrom (line + text.count '\n' + body.count '\n') rest := by
  rw [segmentsFrom_open line plain ends, close?_append passes, opened]

end CollectionRun.Template
