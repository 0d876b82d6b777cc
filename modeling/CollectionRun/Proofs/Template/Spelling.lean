import CollectionRun.Template.Parse
import Mathlib.Data.List.Forall2

/-! `Spelled items cs` says that `cs` are the items of a pipeline one after the other, with
blanks between them, none of them running into what follows it. `read_of_spelled`: a pipeline
that is spelled so is read back. -/

namespace CollectionRun.Template

open Text Lexeme

/-! ### Items -/

def IsName (cs : List Char) : Prop :=
  ∃ c rest, cs = c :: rest ∧ startsName c = true ∧ ∀ x ∈ rest, isNameChar x = true

/-- Operands that can be written: a quoted text in the escapes of JSON, a back-quoted text as it
stands, a chain of names, a function. -/
inductive Operand.WellFormed : Operand → Prop
  | quoted {value spelling : String}
      (denotes : Json.StringLiteral.decode? spelling.toList = some value.toList) :
      WellFormed (.literal value spelling)
  | raw {value : String} (plain : '\x60' ∉ value.toList) :
      WellFormed (.literal value (String.ofList ('\x60' :: value.toList ++ ['\x60'])))
  | field {names : List String} (each : ∀ n ∈ names, IsName n.toList) : WellFormed (.field names)
  | function (f : Function) : WellFormed (.function f)

/-- An operand, or the pipe between two commands. -/
inductive Item where
  | operand (o : Operand)
  | pipe
  deriving DecidableEq, Repr

namespace Item

def chars : Item → List Char
  | operand o => o.text.toList
  | pipe => ['|']

def WellFormed : Item → Prop
  | operand o => o.WellFormed
  | pipe => True

/-- Whether the item would be read on into `rest`. -/
def runsInto : Item → List Char → Bool
  | operand (.field []), rest => rest.head?.any startsName
  | operand (.field (_ :: _)), rest =>
    rest.head?.any isNameChar || (rest.head?.any (· == '.') && rest.tail.head?.any startsName)
  | operand (.function _), rest => rest.head?.any isNameChar
  | _, _ => false

def ReadAs : Item → Lexeme → Prop
  | operand o, l => l.operand = .ok o
  | pipe, l => l = .pipe

end Item

def Command.items (c : Command) : List Item := c.operands.map .operand

def Pipeline.items (p : Pipeline) : List Item :=
  p.first.items ++ p.later.flatMap fun c => .pipe :: c.items

/-- The items one after the other, with blanks between them. -/
inductive Spelled : List Item → List Char → Prop
  | last {item : Item} (written : item.WellFormed) : Spelled [item] item.chars
  | more {item : Item} {items : List Item} {gap cs : List Char} (written : item.WellFormed)
      (blank : ∀ c ∈ gap, isBlank c = true) (apart : item.runsInto (gap ++ cs) = false)
      (later : Spelled items cs) : Spelled (item :: items) (item.chars ++ gap ++ cs)

/-- A quoted piece from behind its opening mark: it ends at its first bare mark. -/
inductive QuotedRest : List Char → Prop
  | mark : QuotedRest ['"']
  | escape {c : Char} {cs : List Char} (bare : c ≠ '\n') (later : QuotedRest cs) :
      QuotedRest ('\\' :: c :: cs)
  | plain {c : Char} {cs : List Char} (bare : c ≠ '\n') (mark : c ≠ '"') (escape : c ≠ '\\')
      (later : QuotedRest cs) : QuotedRest (c :: cs)

theorem upToQuote_append {piece : List Char} (h : QuotedRest piece) (rest : List Char) :
    upToQuote (piece ++ rest) = some (piece, rest) := by
  induction h with
  | mark => rw [List.singleton_append, upToQuote]
  | escape bare _ ih =>
    rw [List.cons_append, List.cons_append, upToQuote, if_neg bare, ih]
    rfl
  | plain bare mark escape _ ih =>
    rw [List.cons_append, upToQuote, if_neg bare, ih]
    · rfl
    · exact mark
    · exact fun _ _ e => absurd e escape

theorem getLast?_quotedRest {piece : List Char} (h : QuotedRest piece) :
    piece.getLast? = some '"' := by
  induction h with
  | mark => rfl
  | escape _ _ ih => rw [List.getLast?_cons, List.getLast?_cons, ih]; rfl
  | plain _ _ _ _ ih => rw [List.getLast?_cons, ih]; rfl

theorem ne_of_hexValue? {c : Char} {n : Nat} (h : Json.StringLiteral.hexValue? c = some n) :
    c ≠ '\n' ∧ c ≠ '"' ∧ c ≠ '\\' := by
  refine ⟨?_, ?_, ?_⟩ <;> rintro rfl <;> simp [Json.StringLiteral.hexValue?] at h

theorem ne_of_fourHex? {a b c d : Char} {n : Nat}
    (h : Json.StringLiteral.fourHex? a b c d = some n) :
    ∀ x ∈ [a, b, c, d], x ≠ '\n' ∧ x ≠ '"' ∧ x ≠ '\\' := by
  simp only [Json.StringLiteral.fourHex?, Option.bind_eq_bind, Option.bind_eq_some_iff] at h
  obtain ⟨_, ha, _, hb, _, hc, _, hd, -⟩ := h
  simp only [List.forall_mem_cons]
  exact ⟨ne_of_hexValue? ha, ne_of_hexValue? hb, ne_of_hexValue? hc, ne_of_hexValue? hd, by simp⟩

theorem ne_of_escaped? {c e : Char} (h : Json.StringLiteral.escaped? c = some e) : c ≠ '\n' := by
  rintro rfl
  simp [Json.StringLiteral.escaped?] at h

theorem quotedRest_of_readPieces {cs after : List Char} {ps : List Json.StringLiteral.Piece}
    (h : Json.StringLiteral.readPieces cs = .ok (ps, after)) :
    ∃ piece, cs = piece ++ after ∧ QuotedRest piece := by
  fun_induction Json.StringLiteral.readPieces cs generalizing ps after with
  | case1 | case3 | case5 | case6 | case8 | case9 => simp at h
  | case2 rest =>
    cases h
    exact ⟨['"'], rfl, .mark⟩
  | case4 a b c d e rest n hex ih =>
    obtain ⟨qs, read, -⟩ := Json.StringLiteral.cons_eq_ok h
    obtain ⟨piece, split, quoted⟩ := ih read
    have digits := ne_of_fourHex? hex
    simp only [List.forall_mem_cons] at digits
    obtain ⟨ha, hb, hc, hd, -⟩ := digits
    refine ⟨'\\' :: 'u' :: a :: b :: c :: d :: piece, by simp [split], .escape (by decide) ?_⟩
    exact .plain ha.1 ha.2.1 ha.2.2 (.plain hb.1 hb.2.1 hb.2.2
      (.plain hc.1 hc.2.1 hc.2.2 (.plain hd.1 hd.2.1 hd.2.2 quoted)))
  | case7 c rest _ _ e escaped ih =>
    obtain ⟨qs, read, -⟩ := Json.StringLiteral.cons_eq_ok h
    obtain ⟨piece, split, quoted⟩ := ih read
    exact ⟨'\\' :: c :: piece, by simp [split], .escape (ne_of_escaped? escaped) quoted⟩
  | case10 c rest mark lone _ _ escape printable ih =>
    obtain ⟨qs, read, -⟩ := Json.StringLiteral.cons_eq_ok h
    obtain ⟨piece, split, quoted⟩ := ih read
    refine ⟨c :: piece, by simp [split], .plain ?_ mark ?_ quoted⟩
    · rintro rfl
      exact printable (by decide)
    · rintro rfl
      cases rest with
      | nil => exact lone rfl rfl
      | cons x rest => exact escape x rest rfl rfl

theorem quotedRest_of_decode? {literal value : List Char}
    (h : Json.StringLiteral.decode? literal = some value) :
    ∃ piece, literal = '"' :: piece ∧ QuotedRest piece := by
  unfold Json.StringLiteral.decode? Json.StringLiteral.read at h
  split at h
  · next body =>
    cases read : Json.StringLiteral.readPieces body with
    | error e => simp [read, Except.map] at h
    | ok pair =>
      obtain ⟨ps, after⟩ := pair
      obtain ⟨piece, split, quoted⟩ := quotedRest_of_readPieces read
      simp only [read, Except.map] at h
      cases after with
      | nil => exact ⟨piece, by rw [split, List.append_nil], quoted⟩
      | cons x after => simp at h
  · simp at h

theorem takeWhile_append_of_head {p : Char → Bool} {cs rest : List Char}
    (inside : ∀ c ∈ cs, p c = true) (ends : rest.head?.any p = false) :
    (cs ++ rest).takeWhile p = cs ∧ (cs ++ rest).dropWhile p = rest := by
  rw [List.takeWhile_append_of_pos inside, List.dropWhile_append_of_pos inside]
  cases rest with
  | nil => simp
  | cons c rest =>
    rw [List.head?_cons, Option.any_some] at ends
    simp [ends]

theorem head?_dropWhile_any (p : Char → Bool) (cs : List Char) :
    (cs.dropWhile p).head?.any p = false := by
  have := List.head?_dropWhile_not p cs
  cases h : (cs.dropWhile p).head? with
  | none => rfl
  | some c =>
    rw [h] at this
    simpa using this

theorem upToBackQuote_append {content : List Char} (plain : '\x60' ∉ content) (rest : List Char) :
    upToBackQuote (content ++ '\x60' :: rest) = some (content, rest) := by
  have inside : ∀ c ∈ content, (c != '\x60') = true := fun c hc => by
    simpa using ne_of_mem_of_not_mem hc plain
  have ends : ('\x60' :: rest).head?.any (· != '\x60') = false := by simp
  obtain ⟨taken, dropped⟩ := takeWhile_append_of_head inside ends
  unfold upToBackQuote
  rw [taken, dropped]

theorem isBlank_of_isNameChar {c : Char} (h : isNameChar c = true) : isBlank c = false := by
  have spelled : isNameChar c =
      ((decide ('A'.val ≤ c.val ∧ c.val ≤ 'Z'.val) ||
        (decide ('a'.val ≤ c.val) && decide (c.val ≤ 'z'.val)) || decide (c = '_')) ||
        (decide ('0'.val ≤ c.val) && decide (c.val ≤ '9'.val))) := rfl
  have bounds : 48 ≤ c.toNat ∧ c.toNat ≤ 122 := by
    rw [spelled] at h
    simp only [Bool.or_eq_true, Bool.and_eq_true, decide_eq_true_eq, UInt32.le_iff_toNat_le,
      Char.toNat] at h ⊢
    rcases h with ((h | h) | rfl) | h
    all_goals simp at *
    all_goals omega
  simp only [isBlank, Bool.or_eq_false_iff, Bool.and_eq_false_iff, decide_eq_false_iff_not,
    beq_eq_false_iff_ne]
  omega

theorem startsName_ne {c : Char} (h : startsName c = true) :
    c ≠ '"' ∧ c ≠ '\x60' ∧ c ≠ '.' ∧ c ≠ '|' := by
  refine ⟨?_, ?_, ?_, ?_⟩ <;> rintro rfl <;> simp [startsName] at h

def chainChars (names : List (List Char)) : List Char := names.flatMap ('.' :: ·)

theorem chainNames_append {names : List (List Char)} (each : ∀ n ∈ names, IsName n)
    {rest : List Char} (ends : rest.head?.any isNameChar = false)
    (stops : (rest.head?.any (· == '.') && rest.tail.head?.any startsName) = false) :
    chainNames (chainChars names ++ rest) = (names, rest) := by
  induction names with
  | nil =>
    show chainNames rest = ([], rest)
    unfold chainNames
    split
    · next c later =>
      simp only [List.head?_cons, Option.any_some, beq_self_eq_true, Bool.true_and,
        List.tail_cons] at stops
      rw [if_neg (by simp [stops])]
    · rfl
  | cons name names ih =>
    rw [List.forall_mem_cons] at each
    obtain ⟨⟨c, later, rfl, start, inside⟩, each⟩ := each
    have follows : (chainChars names ++ rest).head?.any isNameChar = false := by
      cases names with
      | nil => exact ends
      | cons => rfl
    obtain ⟨taken, dropped⟩ := takeWhile_append_of_head inside follows
    have shape : chainChars ((c :: later) :: names) ++ rest =
        '.' :: c :: (later ++ (chainChars names ++ rest)) := by
      simp [chainChars]
    rw [shape, chainNames, if_pos start, taken, dropped, ih each]

theorem toList_text_field (name : String) (names : List String) :
    (Operand.field (name :: names)).text.toList =
      chainChars ((name :: names).map String.toList) := by
  simp [Operand.text, String.toList_join, chainChars, List.flatMap_map]

theorem isName_function (f : Function) : IsName f.name.toList := by
  cases f
  exact ⟨'g', "etenv".toList, rfl, rfl, List.all_eq_true.mp rfl⟩

theorem named?_name (f : Function) : Function.named? f.name = some f := by
  cases f
  decide

/-! ### Shapes -/

theorem IsName.forall_mem {cs : List Char} (h : IsName cs) : ∀ c ∈ cs, isNameChar c = true := by
  obtain ⟨c, rest, rfl, start, inside⟩ := h
  exact List.forall_mem_cons.2 ⟨by simp [isNameChar, start], inside⟩

theorem chars_of_not_literal {item : Item} (written : item.WellFormed)
    (other : ∀ value spelling, item ≠ .operand (.literal value spelling)) :
    item.chars ≠ [] ∧ ∀ c ∈ item.chars, isNameChar c = true ∨ c = '.' ∨ c = '|' := by
  cases item with
  | pipe => exact ⟨by decide, by simp [Item.chars]⟩
  | operand o =>
    cases written with
    | quoted | raw => exact absurd rfl (other _ _)
    | @field names each =>
      cases names with
      | nil => exact ⟨by simp [Item.chars, Operand.text], by simp [Item.chars, Operand.text]⟩
      | cons name names =>
        rw [Item.chars, toList_text_field]
        refine ⟨by simp [chainChars], fun c hc => ?_⟩
        simp only [chainChars, List.mem_flatMap, List.mem_map, List.mem_cons] at hc
        obtain ⟨_, ⟨n, mem, rfl⟩, rfl | hc⟩ := hc
        · exact .inr (.inl rfl)
        · exact .inl ((each n (List.mem_cons.2 mem)).forall_mem c hc)
    | function f =>
      obtain ⟨c, rest, shape, -⟩ := isName_function f
      refine ⟨?_, fun c hc => .inl ((isName_function f).forall_mem c hc)⟩
      show f.name.toList ≠ []
      simp [shape]

theorem chars_of_wellFormed {item : Item} (written : item.WellFormed) :
    (∃ piece, item.chars = '"' :: piece ∧ QuotedRest piece) ∨
      (∃ content, item.chars = '\x60' :: content ++ ['\x60'] ∧ '\x60' ∉ content) ∨
      (item.chars ≠ [] ∧ ∀ c ∈ item.chars, isNameChar c = true ∨ c = '.' ∨ c = '|') := by
  cases item with
  | pipe => exact .inr (.inr (chars_of_not_literal written nofun))
  | operand o =>
    cases written with
    | quoted denotes => exact .inl (quotedRest_of_decode? denotes)
    | raw plain => exact .inr (.inl ⟨_, by simp [Item.chars, Operand.text], plain⟩)
    | @field names each =>
      have written : (Item.operand (.field names)).WellFormed := .field each
      exact .inr (.inr (chars_of_not_literal written nofun))
    | function f =>
      have written : (Item.operand (.function f)).WellFormed := .function f
      exact .inr (.inr (chars_of_not_literal written nofun))

/-- A character that is neither trimmed nor taken for a trim mark. -/
def isSolid (c : Char) : Bool := !isBlank c && c != '-'

/-- What stands between solid characters, or is one. -/
structure Solid (cs : List Char) : Prop where
  starts : cs.head?.any isSolid = true
  ends : cs.getLast?.any isSolid = true

theorem isSolid_of_isNameChar {c : Char} (h : isNameChar c = true) : isSolid c = true := by
  have dash : c ≠ '-' := by
    rintro rfl
    simp [isNameChar, startsName] at h
  simp [isSolid, isBlank_of_isNameChar h, dash]

theorem Solid.ne_nil {cs : List Char} (h : Solid cs) : cs ≠ [] := by
  rintro rfl
  simpa using h.starts

theorem solid_of_forall {cs : List Char} (ne : cs ≠ []) (h : ∀ c ∈ cs, isSolid c = true) :
    Solid cs := by
  constructor
  · rw [List.head?_eq_some_head ne]
    exact h _ (List.head_mem ne)
  · rw [List.getLast?_eq_some_getLast ne]
    exact h _ (List.getLast_mem ne)

theorem solid_chars {item : Item} (written : item.WellFormed) : Solid item.chars := by
  obtain ⟨piece, shape, quoted⟩ | ⟨content, shape, -⟩ | ⟨ne, all⟩ := chars_of_wellFormed written
  · rw [shape]
    exact ⟨by rw [List.head?_cons]; decide,
      by rw [List.getLast?_cons, getLast?_quotedRest quoted]; decide⟩
  · rw [shape]
    exact ⟨by rw [List.cons_append, List.head?_cons]; decide,
      by rw [List.getLast?_concat]; decide⟩
  · refine solid_of_forall ne fun c hc => ?_
    obtain name | rfl | rfl := all c hc
    · exact isSolid_of_isNameChar name
    · decide
    · decide

theorem Spelled.solid {items : List Item} {cs : List Char} (h : Spelled items cs) : Solid cs := by
  induction h with
  | last written => exact solid_chars written
  | more written _ _ _ ih =>
    have first := solid_chars written
    constructor
    · rw [List.append_assoc, List.head?_append_of_ne_nil _ first.ne_nil]
      exact first.starts
    · rw [List.getLast?_append_of_ne_nil _ ih.ne_nil]
      exact ih.ends

theorem head?_chars_ne {item : Item} (written : item.WellFormed) :
    item.chars.head? ≠ some '/' := by
  obtain ⟨piece, shape, -⟩ | ⟨content, shape, -⟩ | ⟨-, all⟩ := chars_of_wellFormed written
  · simp [shape]
  · simp [shape]
  · intro slash
    have := all '/' (List.mem_of_head? slash)
    revert this
    decide

theorem Spelled.head?_ne {items : List Item} {cs : List Char} (h : Spelled items cs) :
    cs.head? ≠ some '/' := by
  cases h with
  | last written => exact head?_chars_ne written
  | more written _ _ _ =>
    rw [List.append_assoc, List.head?_append_of_ne_nil _ (solid_chars written).ne_nil]
    exact head?_chars_ne written

/-- The lexeme at the front of `item.chars ++ rest` stands for the item and ends where it ends. -/
def Item.IsFirst (item : Item) (rest : List Char) : Prop :=
  ∃ c cs l, item.chars = c :: cs ∧ isBlank c = false ∧ item.ReadAs l ∧
    Lexeme.first c (cs ++ rest) = (l, rest)

theorem isFirst_quoted {value spelling : String} (rest : List Char)
    (denotes : Json.StringLiteral.decode? spelling.toList = some value.toList) :
    (Item.operand (.literal value spelling)).IsFirst rest := by
  obtain ⟨piece, shape, quoted⟩ := quotedRest_of_decode? denotes
  refine ⟨'"', piece, .quoted ('"' :: piece), shape, by decide, ?_, ?_⟩
  · show Lexeme.operand (.quoted ('"' :: piece)) = .ok (.literal value spelling)
    simp only [Lexeme.operand, ← shape, denotes, String.ofList_toList]
  · rw [Lexeme.first, if_pos rfl, upToQuote_append quoted]

theorem isFirst_raw {value : String} (rest : List Char) (plain : '\x60' ∉ value.toList) :
    (Item.operand (.literal value
      (String.ofList ('\x60' :: value.toList ++ ['\x60'])))).IsFirst rest := by
  refine ⟨'\x60', value.toList ++ ['\x60'], .raw value.toList, ?_, by decide, ?_, ?_⟩
  · simp [Item.chars, Operand.text]
  · show Lexeme.operand (.raw value.toList) = .ok _
    simp only [Lexeme.operand, String.ofList_toList]
  · rw [List.append_assoc, List.singleton_append, Lexeme.first, if_neg (by decide), if_pos rfl,
      upToBackQuote_append plain]

theorem isFirst_dot {rest : List Char} (apart : rest.head?.any startsName = false) :
    (Item.operand (.field [])).IsFirst rest := by
  refine ⟨'.', [], .chain [], by simp [Item.chars, Operand.text], by decide, rfl, ?_⟩
  have none : chainNames ('.' :: rest) = ([], '.' :: rest) := by
    unfold chainNames
    split
    · next c later e =>
      cases e
      rw [List.head?_cons, Option.any_some] at apart
      rw [if_neg (by simp [apart])]
    · rfl
  rw [List.nil_append, Lexeme.first, if_neg (by decide), if_neg (by decide), if_pos rfl, none]

theorem isFirst_field {name : String} {names : List String}
    (each : ∀ n ∈ name :: names, IsName n.toList) {rest : List Char}
    (apart : (Item.operand (.field (name :: names))).runsInto rest = false) :
    (Item.operand (.field (name :: names))).IsFirst rest := by
  obtain ⟨ends, stops⟩ := Bool.or_eq_false_iff.1 apart
  have chain : ∀ n ∈ (name :: names).map String.toList, IsName n := by simpa using each
  have read := chainNames_append chain ends stops
  refine ⟨'.', name.toList ++ chainChars (names.map String.toList),
    .chain ((name :: names).map String.toList), ?_, by decide, ?_, ?_⟩
  · simp [Item.chars, toList_text_field, chainChars]
  · show Lexeme.operand (.chain _) = .ok _
    simp [Lexeme.operand, Function.comp_def]
  · have shape : '.' :: (name.toList ++ chainChars (names.map String.toList) ++ rest) =
        chainChars ((name :: names).map String.toList) ++ rest := by
      simp [chainChars]
    rw [Lexeme.first, if_neg (by decide), if_neg (by decide), if_pos rfl, shape, read]
    rfl

theorem isFirst_function (f : Function) {rest : List Char}
    (apart : rest.head?.any isNameChar = false) :
    (Item.operand (.function f)).IsFirst rest := by
  obtain ⟨c, later, shape, start, inside⟩ := isName_function f
  obtain ⟨taken, dropped⟩ := takeWhile_append_of_head inside apart
  obtain ⟨mark, back, dot, pipe⟩ := startsName_ne start
  refine ⟨c, later, .word (c :: later), shape, ?_, ?_, ?_⟩
  · exact isBlank_of_isNameChar (by simp [isNameChar, start])
  · show Lexeme.operand (.word (c :: later)) = .ok _
    simp only [Lexeme.operand, ← shape, String.ofList_toList, named?_name]
  · rw [Lexeme.first, if_neg mark, if_neg back, if_neg dot, if_pos start, taken, dropped]

theorem isFirst_pipe (rest : List Char) : Item.pipe.IsFirst rest :=
  ⟨'|', [], .pipe, rfl, by decide, rfl, by
    rw [List.nil_append, Lexeme.first, if_neg (by decide), if_neg (by decide), if_neg (by decide),
      if_neg (by decide), if_pos rfl]⟩

theorem isFirst_of_wellFormed {item : Item} {rest : List Char} (written : item.WellFormed)
    (apart : item.runsInto rest = false) : item.IsFirst rest := by
  cases item with
  | pipe => exact isFirst_pipe rest
  | operand o =>
    cases written with
    | quoted denotes => exact isFirst_quoted rest denotes
    | raw plain => exact isFirst_raw rest plain
    | field each =>
      rename_i names
      cases names with
      | nil => exact isFirst_dot apart
      | cons name names => exact isFirst_field each apart
    | function f => exact isFirst_function f apart

theorem runsInto_nil (item : Item) : item.runsInto [] = false := by
  unfold Item.runsInto
  split <;> rfl

-- By the defining equation as a whole: Lean takes seconds to split it into one for each pattern.
theorem lexemes_nil : lexemes [] = [] := by rw [lexemes.eq_def]

theorem lexemes_cons (c : Char) (rest : List Char) :
    lexemes (c :: rest) =
      if isBlank c then lexemes rest
      else (Lexeme.first c rest).1 :: lexemes (Lexeme.first c rest).2 := by
  rw [lexemes.eq_def]

theorem lexemes_skip {gap : List Char} (blank : ∀ c ∈ gap, isBlank c = true) (cs : List Char) :
    lexemes (gap ++ cs) = lexemes cs := by
  induction gap with
  | nil => rfl
  | cons c gap ih =>
    rw [List.forall_mem_cons] at blank
    rw [List.cons_append, lexemes_cons, if_pos blank.1, ih blank.2]

theorem lexemes_of_isFirst {item : Item} {rest : List Char} (h : item.IsFirst rest) :
    ∃ l, item.ReadAs l ∧ lexemes (item.chars ++ rest) = l :: lexemes rest := by
  obtain ⟨c, cs, l, shape, solid, stands, read⟩ := h
  refine ⟨l, stands, ?_⟩
  rw [shape, List.cons_append, lexemes_cons, if_neg (by simp [solid]), read]

theorem lexemes_of_spelled {items : List Item} {cs : List Char} (h : Spelled items cs) :
    List.Forall₂ Item.ReadAs items (lexemes cs) := by
  induction h with
  | @last item written =>
    obtain ⟨l, stands, read⟩ :=
      lexemes_of_isFirst (isFirst_of_wellFormed written (runsInto_nil item))
    rw [List.append_nil] at read
    rw [read, lexemes_nil]
    exact .cons stands .nil
  | more written blank apart _ ih =>
    obtain ⟨l, stands, read⟩ := lexemes_of_isFirst (isFirst_of_wellFormed written apart)
    rw [List.append_assoc, read, lexemes_skip blank]
    exact .cons stands ih

/-! ### Reading pipelines -/

namespace Pipeline

theorem ofLexemes_none_cons {l : Lexeme} {o : Operand} (h : l.operand = .ok o)
    (rest : List Lexeme) : ofLexemes none (l :: rest) = ofLexemes (some ⟨o, []⟩) rest := by
  cases l with
  | pipe => cases h
  | _ => rw [ofLexemes, h]; rfl; intro e; cases e

theorem ofLexemes_some_cons {l : Lexeme} {o : Operand} (h : l.operand = .ok o) (command : Command)
    (rest : List Lexeme) : ofLexemes (some command) (l :: rest) =
      ofLexemes (some { command with arguments := command.arguments ++ [o] }) rest := by
  cases l with
  | pipe => cases h
  | _ => rw [ofLexemes, h]; rfl; intro e; cases e

/-- The operands that follow a command are its further arguments, up to the next pipe. -/
theorem ofLexemes_items (later : List Command) (command : Command) (arguments : List Operand)
    {ls : List Lexeme} (h : List.Forall₂ Item.ReadAs
      (arguments.map .operand ++ later.flatMap fun c => .pipe :: c.items) ls) :
    ofLexemes (some command) ls =
      .ok ⟨{ command with arguments := command.arguments ++ arguments }, later⟩ := by
  induction later generalizing command arguments ls with
  | nil =>
    induction arguments generalizing command ls with
    | nil =>
      cases h
      rw [ofLexemes, List.append_nil]
    | cons a arguments ih =>
      cases h with
      | cons stands h =>
        rw [ofLexemes_some_cons stands, ih _ h]
        simp
  | cons d later ih =>
    induction arguments generalizing command ls with
    | nil =>
      cases h with
      | cons pipe h =>
        cases h with
        | cons stands h =>
          cases pipe
          rw [ofLexemes, ofLexemes_none_cons stands, ih _ _ h, List.append_nil]
          rfl
    | cons a arguments ih' =>
      cases h with
      | cons stands h =>
        rw [ofLexemes_some_cons stands, ih' _ h]
        simp

theorem ofLexemes_of_readAs {p : Pipeline} {ls : List Lexeme}
    (h : List.Forall₂ Item.ReadAs p.items ls) : ofLexemes none ls = .ok p := by
  obtain ⟨⟨head, arguments⟩, later⟩ := p
  cases h with
  | cons stands rest =>
    rw [ofLexemes_none_cons stands, ofLexemes_items _ _ _ rest]
    rfl

theorem read_of_spelled {p : Pipeline} {cs : List Char} (h : Spelled p.items cs) :
    read cs = .ok p := by
  have present : cs.isEmpty = false := List.isEmpty_eq_false_iff.2 h.solid.ne_nil
  rw [read, present, if_neg (by simp), ofLexemes_of_readAs (lexemes_of_spelled h)]

end Pipeline

end CollectionRun.Template
