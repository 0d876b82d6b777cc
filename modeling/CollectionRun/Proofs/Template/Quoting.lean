import CollectionRun.Proofs.Template.Comments
import CollectionRun.Proofs.Template.Dependence
import CollectionRun.Proofs.Template.Parts

/-!
An action is cut twice, into the parts of its scan and, once its margins are off, into lexemes.
The rules are not the same: behind a backslash the scan lets a line feed stand in a double-quoted
piece, and a lexeme does not. But where an action is read as a pipeline the two cuts agree
(`quotedAlike_of_read`).
-/

namespace CollectionRun.Template

open Text Lexeme

def Operand.isLiteral : Operand → Bool
  | .literal _ _ => true
  | _ => false

def Lexeme.isLiteral : Lexeme → Bool
  | .quoted _ | .raw _ => true
  | _ => false

namespace Part

def lexeme? : Part → Option Lexeme
  | quoted spelling => some (.quoted spelling)
  | raw content => some (.raw content)
  | bare _ => none

def isPiece (part : Part) : Bool := part.lexeme?.isSome

@[simp] theorem lexeme?_bare (c : Char) : (bare c).lexeme? = none := rfl

@[simp] theorem filter_isPiece_bare (cs : List Char) : (cs.map bare).filter isPiece = [] :=
  List.filter_eq_nil_iff.mpr (List.forall_mem_map.mpr fun _ _ => Bool.false_ne_true)

/-- The lexemes of parts each piece of which is one lexeme, while the characters between two pieces
are read by themselves; `gap` are those since the last piece. -/
def lexemes (gap : List Char) : List Part → List Lexeme
  | [] => Template.lexemes gap
  | part :: later =>
    match part.lexeme? with
    | some l => Template.lexemes gap ++ l :: lexemes [] later
    | none => lexemes (gap ++ part.chars) later

theorem lexemes_bare (cs gap : List Char) (later : List Part) :
    lexemes gap (cs.map bare ++ later) = lexemes (gap ++ cs) later := by
  induction cs generalizing gap with
  | nil => rw [List.append_nil, List.map_nil, List.nil_append]
  | cons c cs ih =>
    rw [List.append_cons, ← ih]
    rfl

/-- What splits off in front of every text that starts as the parts do splits off in front of the
parts. -/
theorem lexemes_append {front : List Char} {ls : List Lexeme} (parts : List Part)
    (gap : List Char) (splits : ∀ more, more <+: gap ++ parts.flatMap Part.chars →
      Template.lexemes (front ++ more) = ls ++ Template.lexemes more) :
    lexemes (front ++ gap) parts = ls ++ lexemes gap parts := by
  induction parts generalizing gap with
  | nil => exact splits gap (List.prefix_append _ _)
  | cons part later ih =>
    rw [lexemes, lexemes]
    cases part.lexeme? with
    | some l =>
      show Template.lexemes (front ++ gap) ++ _ = ls ++ (Template.lexemes gap ++ _)
      rw [splits gap (List.prefix_append _ _), List.append_assoc]
    | none =>
      show lexemes (front ++ gap ++ part.chars) later = ls ++ lexemes (gap ++ part.chars) later
      rw [List.append_assoc]
      refine ih _ fun more starts => splits more ?_
      rwa [List.flatMap_cons, ← List.append_assoc]

end Part

def Operand.lexeme : Operand → Lexeme
  | .literal _ spelling =>
    match spelling.toList with
    | '\x60' :: rest => .raw rest.dropLast
    | spelling => .quoted spelling
  | .field names => .chain (names.map String.toList)
  | .function f => .word f.name.toList

namespace Item

def isLiteral : Item → Bool
  | operand o => o.isLiteral
  | pipe => false

def lexeme : Item → Lexeme
  | operand o => o.lexeme
  | pipe => .pipe

def parts (item : Item) : List Part :=
  match item.lexeme with
  | .quoted spelling => [.quoted spelling]
  | .raw content => [.raw content]
  | _ => item.chars.map .bare

theorem isLiteral_lexeme (item : Item) : item.lexeme.isLiteral = item.isLiteral := by
  cases item with
  | pipe => rfl
  | operand o =>
    cases o with
    | literal value spelling =>
      show (Operand.literal value spelling).lexeme.isLiteral = true
      rw [Operand.lexeme]
      split <;> rfl
    | field | function => rfl

theorem lexeme_eq_of_readAs {item : Item} {l : Lexeme} (stands : item.ReadAs l) :
    item.lexeme = l := by
  cases item with
  | pipe => exact stands.symm
  | operand o =>
    cases l with
    | quoted spelling =>
      simp only [ReadAs, Lexeme.operand] at stands
      split at stands
      · next value denotes =>
        cases stands
        obtain ⟨piece, rfl, -⟩ := quotedRest_of_decode? denotes
        simp [lexeme, Operand.lexeme]
      · cases stands
    | raw content =>
      cases stands
      simp [lexeme, Operand.lexeme]
    | chain names =>
      cases stands
      simp [lexeme, Operand.lexeme, Function.comp_def]
    | word name =>
      simp only [ReadAs, Lexeme.operand] at stands
      split at stands
      · next f named =>
        cases stands
        have same : f.name = String.ofList name := by simpa using List.find?_some named
        simp [lexeme, Operand.lexeme, same]
      · cases stands
    | pipe | unexpected => cases stands

inductive Form (item : Item) : Prop
  | quoted {piece : List Char} (ends : QuotedRest piece) (chars : item.chars = '"' :: piece)
      (lexeme : item.lexeme = .quoted ('"' :: piece))
  | raw {content : List Char} (plain : '\x60' ∉ content)
      (chars : item.chars = '\x60' :: content ++ ['\x60']) (lexeme : item.lexeme = .raw content)
  | bare (chars : ∀ c ∈ item.chars, isNameChar c = true ∨ c = '.' ∨ c = '|')
      (other : item.isLiteral = false)

theorem form_of_wellFormed {item : Item} (written : item.WellFormed) : item.Form := by
  cases item with
  | pipe => exact .bare (chars_of_not_literal written nofun).2 rfl
  | operand o =>
    cases o with
    | field | function => exact .bare (chars_of_not_literal written nofun).2 rfl
    | literal value spelling =>
      cases written with
      | quoted denotes =>
        obtain ⟨piece, shape, ends⟩ := quotedRest_of_decode? denotes
        refine .quoted ends shape ?_
        simp [lexeme, Operand.lexeme, shape]
      | raw plain =>
        refine .raw plain ?_ ?_
        · simp [chars, Operand.text]
        · simp [lexeme, Operand.lexeme]

theorem parts_of_not_literal {item : Item} (other : item.isLiteral = false) :
    item.parts = item.chars.map .bare := by
  rw [← isLiteral_lexeme] at other
  unfold parts
  split
  · next literal => rw [literal] at other; cases other
  · next literal => rw [literal] at other; cases other
  · rfl

theorem filter_parts {item : Item} (form : item.Form) :
    (item.parts.filter Part.isPiece).map Part.chars = ([item].filter isLiteral).map chars := by
  cases form with
  | quoted _ shape lexeme | raw _ shape lexeme =>
    have literal : item.isLiteral = true := by
      rw [← isLiteral_lexeme, lexeme]
      rfl
    rw [parts, lexeme, List.filter_cons_of_pos literal, List.filter_nil, List.map_singleton, shape]
    rfl
  | bare _ other => simp [parts_of_not_literal other, other]

theorem filterMap_parts {item : Item} (form : item.Form) :
    item.parts.filterMap Part.lexeme? = [item.lexeme].filter Lexeme.isLiteral := by
  cases form with
  | quoted _ _ lexeme | raw _ _ lexeme =>
    rw [parts, lexeme]
    rfl
  | bare _ other => simp [parts_of_not_literal other, isLiteral_lexeme, other]

theorem any_head?_of_starts {p : Char → Bool} {more rest : List Char} (starts : more <+: rest)
    (none : rest.head?.any p = false) : more.head?.any p = false := by
  cases more with
  | nil => rfl
  | cons c more =>
    obtain ⟨later, rfl⟩ := starts
    exact none

theorem runsInto_of_starts {item : Item} {more rest : List Char} (starts : more <+: rest)
    (apart : item.runsInto rest = false) : item.runsInto more = false := by
  have tails : more.tail <+: rest.tail := by
    cases more with
    | nil => exact List.nil_prefix
    | cons c more =>
      obtain ⟨later, rfl⟩ := starts
      exact List.prefix_append _ _
  unfold runsInto at apart ⊢
  split at apart
  · exact any_head?_of_starts starts apart
  · rw [Bool.or_eq_false_iff, Bool.and_eq_false_iff] at apart ⊢
    exact ⟨any_head?_of_starts starts apart.1,
      apart.2.imp (any_head?_of_starts starts) (any_head?_of_starts tails)⟩
  · exact any_head?_of_starts starts apart
  · rfl

theorem lexemes_append {item : Item} (written : item.WellFormed) {rest : List Char}
    (apart : item.runsInto rest = false) :
    lexemes (item.chars ++ rest) = item.lexeme :: lexemes rest := by
  obtain ⟨l, stands, read⟩ := lexemes_of_isFirst (isFirst_of_wellFormed written apart)
  rw [read, lexeme_eq_of_readAs stands]

end Item

/-! ### Scanning items -/

namespace Scan

def prepend (parts : List Part) (s : Scan) : Scan := ⟨parts ++ s.parts, s.stop⟩

theorem prepend_prepend (a b : List Part) (s : Scan) :
    (s.prepend b).prepend a = s.prepend (a ++ b) := by
  simp [prepend]

end Scan

theorem scan_nil : scan [] = ⟨[], .atEnd⟩ := scan_of_none rfl

theorem text_scan_starts (cs : List Char) : (scan cs).text <+: cs := by
  fun_induction scan cs with
  | case1 cs => exact List.nil_prefix
  | case2 cs part rest first ih =>
    obtain ⟨split, -⟩ := eq_of_first? first
    show part.chars ++ (scan rest).text <+: cs
    rw [split]
    exact (List.prefix_append_right_inj _).mpr ih

theorem upToMark_append {piece : List Char} (h : QuotedRest piece) (rest : List Char) :
    upToMark (piece ++ rest) = some (piece, rest) := by
  induction h with
  | mark => rw [List.singleton_append, upToMark]
  | escape bare _ ih =>
    rw [List.cons_append, List.cons_append, upToMark, ih]
    rfl
  | plain bare mark escape _ ih =>
    rw [List.cons_append, upToMark, if_neg bare, ih]
    · rfl
    · exact mark
    · exact fun _ _ e => absurd e escape

theorem first?_bare {c : Char} (mark : c ≠ '"') (back : c ≠ '\x60') (brace : c ≠ '\x7d')
    (rest : List Char) : Part.first? (c :: rest) = some (.bare c, rest) := by
  unfold Part.first?
  split <;> simp_all

theorem scan_bare {cs : List Char} (plain : ∀ c ∈ cs, c ≠ '"' ∧ c ≠ '\x60' ∧ c ≠ '\x7d')
    (rest : List Char) : scan (cs ++ rest) = (scan rest).prepend (cs.map .bare) := by
  induction cs with
  | nil => rfl
  | cons c cs ih =>
    rw [List.forall_mem_cons] at plain
    obtain ⟨⟨mark, back, brace⟩, plain⟩ := plain
    rw [List.cons_append, scan_of_some (first?_bare mark back brace _), ih plain]
    rfl

theorem scan_chars {item : Item} (form : item.Form) (rest : List Char) :
    scan (item.chars ++ rest) = (scan rest).prepend item.parts := by
  cases form with
  | @quoted piece ends shape lexeme =>
    have first : Part.first? ('"' :: (piece ++ rest)) = some (.quoted ('"' :: piece), rest) := by
      rw [Part.first?, upToMark_append ends]
      rfl
    rw [shape, Item.parts, lexeme, List.cons_append, scan_of_some first]
    rfl
  | @raw content plain shape lexeme =>
    have first : Part.first? ('\x60' :: (content ++ '\x60' :: rest)) =
        some (.raw content, rest) := by
      rw [Part.first?, upToBackQuote_append plain]
      rfl
    rw [shape, Item.parts, lexeme, List.append_assoc, List.cons_append, List.singleton_append,
      scan_of_some first]
    rfl
  | bare chars other =>
    rw [Item.parts_of_not_literal other]
    refine scan_bare (fun c hc => ?_) rest
    obtain name | rfl | rfl := chars c hc
    · refine ⟨?_, ?_, ?_⟩ <;> rintro rfl <;> revert name <;> decide
    · decide
    · decide

theorem scan_of_item {item : Item} {cs after : List Char} (begins : item.Begins cs after) :
    scan cs = (scan after).prepend item.parts := by
  rw [begins.split]
  exact scan_chars (Item.form_of_wellFormed begins.written) after

theorem scan_of_blank {c : Char} (blank : isBlank c = true) (cs : List Char) :
    scan (c :: cs) = (scan cs).prepend [.bare c] := by
  refine scan_of_some (first?_bare ?_ ?_ ?_ cs) <;> rintro rfl <;> revert blank <;> decide

theorem scan_append_of_spaced {items : List Item} {cs : List Char} (h : Spaced items cs)
    (rest : List Char) : scan (cs ++ rest) = (scan rest).prepend (scan cs).parts := by
  induction h with
  | nil =>
    rw [scan_nil]
    rfl
  | blank blank _ ih =>
    rw [List.cons_append, scan_of_blank blank, scan_of_blank blank, ih, Scan.prepend_prepend]
    rfl
  | item begins _ ih =>
    rw [scan_of_item begins, begins.split, List.append_assoc,
      scan_chars (Item.form_of_wellFormed begins.written), ih, Scan.prepend_prepend]
    rfl

theorem pieces_of_spaced {items : List Item} {cs : List Char} (h : Spaced items cs) :
    ((scan cs).parts.filter Part.isPiece).map Part.chars =
      (items.filter Item.isLiteral).map Item.chars := by
  induction h with
  | nil =>
    rw [scan_nil]
    rfl
  | blank blank _ ih =>
    rw [scan_of_blank blank]
    exact ih
  | @item item items _ _ begins _ ih =>
    have here := Item.filter_parts (Item.form_of_wellFormed begins.written)
    have split : item :: items = [item] ++ items := rfl
    rw [scan_of_item begins, split, List.filter_append, List.map_append, ← ih, ← here,
      ← List.map_append, ← List.filter_append]
    rfl

theorem literals_of_spaced {items : List Item} {cs : List Char} (h : Spaced items cs) :
    (lexemes cs).filter Lexeme.isLiteral = (scan cs).parts.filterMap Part.lexeme? := by
  induction h with
  | nil =>
    rw [scan_nil, lexemes_nil]
    rfl
  | blank blank _ ih =>
    rw [scan_of_blank blank, lexemes_cons, if_pos blank, ih]
    rfl
  | @item item items cs after begins _ ih =>
    have here := Item.filterMap_parts (Item.form_of_wellFormed begins.written)
    have read : lexemes cs = [item.lexeme] ++ lexemes after := by
      rw [begins.split, Item.lexemes_append begins.written begins.apart]
      rfl
    rw [scan_of_item begins, read, List.filter_append, ih, ← here, ← List.filterMap_append]
    rfl

theorem lexemes_of_scan {items : List Item} {cs : List Char} (h : Spaced items cs) :
    Part.lexemes [] (scan cs).parts = lexemes cs := by
  induction h with
  | nil =>
    rw [scan_nil]
    rfl
  | @blank items c cs blank _ ih =>
    have splits (more : List Char) : lexemes ([c] ++ more) = [] ++ lexemes more := by
      rw [List.singleton_append, lexemes_cons, if_pos blank, List.nil_append]
    rw [scan_of_blank blank, lexemes_cons, if_pos blank, ← ih]
    exact Part.lexemes_append _ [] fun more _ => splits more
  | @item item items cs after begins _ ih =>
    have read := Item.lexemes_append begins.written begins.apart
    rw [scan_of_item begins, begins.split, read, ← ih]
    -- A piece is a lexeme at once. Other characters are read together with those up to the next
    -- piece, and it matters that the item does not run into them either.
    cases Item.form_of_wellFormed begins.written with
    | quoted _ _ lexeme | raw _ _ lexeme =>
      rw [Item.parts, lexeme]
      show lexemes [] ++ _ = _
      rw [lexemes_nil]
      rfl
    | bare _ other =>
      have splits (more : List Char) (starts : more <+: [] ++ (scan after).text) :
          lexemes (item.chars ++ more) = [item.lexeme] ++ lexemes more := by
        have apart := Item.runsInto_of_starts (starts.trans (text_scan_starts after)) begins.apart
        exact Item.lexemes_append begins.written apart
      rw [Item.parts_of_not_literal other]
      show Part.lexemes [] (item.chars.map .bare ++ (scan after).parts) = _
      rw [Part.lexemes_bare]
      have := Part.lexemes_append _ [] splits
      simpa using this

/-! ### Bodies -/

theorem eq_of_dropFrontMark (cs : List Char) :
    ∃ marks, marks ++ (Body.dropFrontMark cs).2 = cs ∧ ∀ c ∈ marks, c = '-' := by
  unfold Body.dropFrontMark
  split
  · exact ⟨['-'], rfl, by simp⟩
  · next c rest =>
    split
    · exact ⟨['-'], rfl, by simp⟩
    · exact ⟨[], rfl, nofun⟩
  · exact ⟨[], rfl, nofun⟩

/-- Only trim marks and blanks are taken off a body. -/
theorem exists_margins (body : List Char) : ∃ front back,
    body = front ++ (Body.ofChars body).content ++ back ∧
      ∀ c ∈ front ++ back, c = '-' ∨ isBlank c = true := by
  obtain ⟨frontMarks, whole, frontDashes⟩ := eq_of_dropFrontMark body
  obtain ⟨backMarks, rest, backDashes⟩ := eq_of_dropBackMark (Body.dropFrontMark body).2
  obtain ⟨lead, trail, inner, blank, -⟩ :=
    (isTrimmed_trimmed true true (Body.dropBackMark (Body.dropFrontMark body).2).1).parts
  have content : trimmed true true (Body.dropBackMark (Body.dropFrontMark body).2).1 =
      (Body.ofChars body).content := rfl
  rw [content] at inner
  refine ⟨frontMarks ++ lead, trail ++ backMarks, ?_, fun c hc => ?_⟩
  · calc body = frontMarks ++ (lead ++ (Body.ofChars body).content ++ trail ++ backMarks) := by
          rw [← inner, rest, whole]
      _ = _ := by simp only [List.append_assoc]
  · simp only [List.mem_append] at hc blank
    obtain (mark | lead) | (trail | mark) := hc
    · exact .inl (frontDashes c mark)
    · exact .inr (blank c (.inl lead))
    · exact .inr (blank c (.inr trail))
    · exact .inl (backDashes c mark)

/-- The scan of an action, which finds `body` with `after` behind it, and the lexemes of the body's
content agree on what is quoted in it. -/
structure QuotedAlike (cs body after : List Char) (p : Pipeline) : Prop where
  text : (scan cs).text = body
  stop : (scan cs).stop = .closed after
  /-- The pieces are the texts of the literals, in their order. -/
  operands : ((scan cs).parts.filter Part.isPiece).map Part.chars =
    (p.operands.filter Operand.isLiteral).map fun o => o.text.toList
  /-- No lexeme is a literal but the pieces. -/
  literals : (lexemes (Body.ofChars body).content).filter Lexeme.isLiteral =
    (scan cs).parts.filterMap Part.lexeme?
  /-- Each piece is one lexeme whatever is in it, and the others are those of the characters
  between two pieces. -/
  lexemes : ∃ front back, body = front ++ (Body.ofChars body).content ++ back ∧
    (∀ c ∈ front ++ back, c = '-' ∨ isBlank c = true) ∧
    (scan cs).parts =
      front.map .bare ++ (scan (Body.ofChars body).content).parts ++ back.map .bare ∧
    lexemes (Body.ofChars body).content =
      Part.lexemes [] (scan (Body.ofChars body).content).parts

theorem filter_items (p : Pipeline) : (p.items.filter Item.isLiteral).map Item.chars =
    (p.operands.filter Operand.isLiteral).map fun o => o.text.toList := by
  have command (c : Command) : (c.items.filter Item.isLiteral).map Item.chars =
      (c.operands.filter Operand.isLiteral).map fun o => o.text.toList := by
    rw [Command.items, List.filter_map, List.map_map]
    rfl
  have later (cs : List Command) :
      ((cs.flatMap fun c => .pipe :: c.items).filter Item.isLiteral).map Item.chars =
        ((cs.flatMap Command.operands).filter Operand.isLiteral).map fun o => o.text.toList := by
    induction cs with
    | nil => rfl
    | cons c cs ih =>
      rw [List.flatMap_cons, List.flatMap_cons, List.filter_append, List.map_append,
        List.filter_append, List.map_append, ih, ← command,
        List.filter_cons_of_neg Bool.false_ne_true]
  rw [Pipeline.items, Pipeline.operands, Pipeline.commands, List.flatMap_cons, List.filter_append,
    List.map_append, List.filter_append, List.map_append, command, later]

theorem scan_of_margins {front content back : List Char} {items : List Item}
    (margins : ∀ c ∈ front ++ back, c = '-' ∨ isBlank c = true) (spaced : Spaced items content)
    (after : List Char) : scan (front ++ content ++ back ++ closingBraces ++ after) =
      ⟨front.map .bare ++ (scan content).parts ++ back.map .bare, .closed after⟩ := by
  have plain (c : Char) (hc : c ∈ front ++ back) : c ≠ '"' ∧ c ≠ '\x60' ∧ c ≠ '\x7d' := by
    obtain rfl | blank := margins c hc
    · decide
    · refine ⟨?_, ?_, ?_⟩ <;> rintro rfl <;> revert blank <;> decide
  rw [List.forall_mem_append] at plain
  have ends : scan (closingBraces ++ after) = ⟨[], .closed after⟩ := scan_of_none rfl
  simp only [List.append_assoc]
  rw [scan_bare plain.1, scan_append_of_spaced spaced, scan_bare plain.2, ends]
  simp [Scan.prepend]

theorem quotedAlike_of_read {cs body after : List Char} {p : Pipeline}
    (closes : close? cs = some (body, after))
    (reads : Pipeline.read (Body.ofChars body).content = .ok p) : QuotedAlike cs body after p := by
  have spaced := (Pipeline.read_eq_ok_iff _ p).mp reads
  obtain ⟨stop, text⟩ := found_eq_some_iff.mp ((close?_eq_found cs).symm.trans closes)
  obtain ⟨front, back, split, margins⟩ := exists_margins body
  have parts : (scan cs).parts =
      front.map .bare ++ (scan (Body.ofChars body).content).parts ++ back.map .bare := by
    rw [eq_of_closeFrom closes]
    conv_lhs => rw [split, scan_of_margins margins spaced]
  refine ⟨text, stop, ?_, ?_, front, back, split, margins, parts, (lexemes_of_scan spaced).symm⟩
  · rw [← filter_items, ← pieces_of_spaced spaced, parts]
    simp
  · rw [literals_of_spaced spaced, parts]
    simp [Function.comp_def]

theorem quotedAlike_of_quoted_syntax :
    let cs := "- getenv \"|.\\\" \x7d\x7d\\\\\"| \x60\x7d\x7d getenv\n\"\\\x60 -\x7d\x7d \"\x7d\x7d".toList
    let body := "- getenv \"|.\\\" \x7d\x7d\\\\\"| \x60\x7d\x7d getenv\n\"\\\x60 -".toList
    let p : Pipeline := ⟨⟨.function .getenv,
      [.literal "|.\" \x7d\x7d\\" "\"|.\\\" \x7d\x7d\\\\\""]⟩,
      [⟨.literal "\x7d\x7d getenv\n\"\\" "\x60\x7d\x7d getenv\n\"\\\x60", []⟩]⟩
    close? cs = some (body, " \"\x7d\x7d".toList) ∧
      Pipeline.read (Body.ofChars body).content = .ok p ∧
      QuotedAlike cs body " \"\x7d\x7d".toList p := by
  intro cs body p
  have closes : close? cs = some (body, " \"\x7d\x7d".toList) := by decide +kernel
  have reads : Pipeline.read (Body.ofChars body).content = .ok p := by
    with_unfolding_all rfl
  exact ⟨closes, reads, quotedAlike_of_read closes reads⟩

end CollectionRun.Template
