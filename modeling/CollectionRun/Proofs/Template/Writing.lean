import CollectionRun.Proofs.Except
import CollectionRun.Proofs.Template.Spelling
import CollectionRun.Template.Segment

/-!
A text is read as a pipeline exactly if it spells its items one after the other, each as long as
it can be, with blanks anywhere between them (`read_eq_ok_iff`). So a pipeline is read back
however it is written (`Pipeline.Written`), and what is read is the text but for the blanks
outside its literals.
-/

namespace CollectionRun.Template

open Text Lexeme

/-! ### What lexemes take -/

theorem eq_of_upToQuote {cs piece after : List Char} (h : upToQuote cs = some (piece, after)) :
    cs = piece ++ after := by
  fun_induction upToQuote cs generalizing piece after with
  | case1 => contradiction
  | case2 => cases h; rfl
  | case3 => contradiction
  | case4 c rest _ ih =>
    obtain ⟨⟨p, a⟩, found, same⟩ := Option.map_eq_some_iff.mp h
    cases same
    rw [ih found]
    rfl
  | case5 => contradiction
  | case6 c rest _ _ _ ih =>
    obtain ⟨⟨p, a⟩, found, same⟩ := Option.map_eq_some_iff.mp h
    cases same
    rw [ih found]
    rfl

theorem eq_of_upToBackQuote {cs content after : List Char}
    (h : upToBackQuote cs = some (content, after)) :
    cs = content ++ '\x60' :: after ∧ '\x60' ∉ content := by
  unfold upToBackQuote at h
  split at h
  · contradiction
  · next mark rest found =>
    cases h
    have stops : mark = '\x60' := by
      have := List.head?_dropWhile_not (· != '\x60') cs
      rw [found] at this
      simpa using this
    constructor
    · have whole := List.takeWhile_append_dropWhile (p := (· != '\x60')) (l := cs)
      rw [found, stops] at whole
      exact whole.symm
    · intro inside
      have := List.all_eq_true.mp List.all_takeWhile _ inside
      simp at this

theorem isName_takeWhile {c : Char} (start : startsName c = true) (rest : List Char) :
    IsName (c :: rest.takeWhile isNameChar) :=
  ⟨c, _, rfl, start, fun _ inside => List.all_eq_true.mp List.all_takeWhile _ inside⟩

/-- A chain ends where no further name follows, and each of its names is as long as it can be. -/
theorem chain_of_chainNames (cs : List Char) :
    cs = chainChars (chainNames cs).1 ++ (chainNames cs).2 ∧
      (∀ n ∈ (chainNames cs).1, IsName n) ∧
      ((chainNames cs).2.head?.any (· == '.') &&
        (chainNames cs).2.tail.head?.any startsName) = false ∧
      ((chainNames cs).1 ≠ [] ∨ cs.head?.any isNameChar = false →
        (chainNames cs).2.head?.any isNameChar = false) := by
  -- Behind a name the rest starts with no character of a name, which is the second way to the end.
  fun_induction chainNames cs with
  | case1 c rest start names after found ih =>
    rw [found] at ih
    obtain ⟨split, each, stops, ends⟩ := ih
    have whole := List.takeWhile_append_dropWhile (p := isNameChar) (l := rest)
    refine ⟨?_, List.forall_mem_cons.mpr ⟨isName_takeWhile start rest, each⟩, stops, fun _ => ?_⟩
    · conv_lhs => rw [← whole, split]
      simp [chainChars]
    · exact ends (.inr (head?_dropWhile_any isNameChar rest))
  | case2 c rest start =>
    exact ⟨rfl, by simp, by simpa using start, by simp⟩
  | case3 cs other =>
    refine ⟨rfl, by simp, ?_, by simp⟩
    cases cs with
    | nil => rfl
    | cons d rest =>
      cases rest with
      | nil => simp
      | cons e rest =>
        have : d ≠ '.' := fun dot => other e rest (by rw [dot])
        simp [this]

structure Item.Begins (item : Item) (cs after : List Char) : Prop where
  split : cs = item.chars ++ after
  written : item.WellFormed
  apart : item.runsInto after = false

theorem begins_quoted {item : Item} {rest piece after : List Char}
    (found : upToQuote rest = some (piece, after)) (stands : item.ReadAs (.quoted ('"' :: piece))) :
    item.Begins ('"' :: rest) after := by
  cases item with
  | pipe => cases stands
  | operand o =>
    simp only [Item.ReadAs, Lexeme.operand] at stands
    split at stands
    · next value denotes =>
      cases stands
      refine ⟨?_, .quoted (by simpa using denotes), rfl⟩
      simp [Item.chars, Operand.text, eq_of_upToQuote found]
    · cases stands

theorem begins_raw {item : Item} {rest content after : List Char}
    (found : upToBackQuote rest = some (content, after)) (stands : item.ReadAs (.raw content)) :
    item.Begins ('\x60' :: rest) after := by
  obtain ⟨split, plain⟩ := eq_of_upToBackQuote found
  cases item with
  | pipe => cases stands
  | operand o =>
    cases stands
    have written : (Operand.literal (String.ofList content) _).WellFormed :=
      .raw (by simpa using plain)
    rw [String.toList_ofList] at written
    refine ⟨?_, written, rfl⟩
    simp [Item.chars, Operand.text, split]

theorem begins_dot {item : Item} {rest : List Char} (none : (chainNames ('.' :: rest)).1 = [])
    (stands : item.ReadAs (.chain [])) : item.Begins ('.' :: rest) rest := by
  obtain ⟨split, -, stops, -⟩ := chain_of_chainNames ('.' :: rest)
  rw [none] at split
  have nothing : (chainNames ('.' :: rest)).2 = '.' :: rest := split.symm
  rw [nothing] at stops
  cases item with
  | pipe => cases stands
  | operand o =>
    cases stands
    refine ⟨by simp [Item.chars, Operand.text], .field (by simp), ?_⟩
    simpa [Item.runsInto] using stops

theorem begins_chain {item : Item} {cs after name : List Char} {names : List (List Char)}
    (found : chainNames cs = (name :: names, after)) (stands : item.ReadAs (.chain (name :: names))) :
    item.Begins cs after := by
  obtain ⟨split, each, stops, ends⟩ := chain_of_chainNames cs
  rw [found] at split each stops ends
  cases item with
  | pipe => cases stands
  | operand o =>
    cases stands
    refine ⟨?_, .field (by simpa using each), ?_⟩
    · rw [Item.chars, List.map_cons, toList_text_field]
      simpa [Function.comp_def] using split
    · rw [List.map_cons, Item.runsInto, ends (.inl (List.cons_ne_nil _ _)), stops]
      rfl

theorem begins_word {item : Item} {c : Char} {rest : List Char}
    (stands : item.ReadAs (.word (c :: rest.takeWhile isNameChar))) :
    item.Begins (c :: rest) (rest.dropWhile isNameChar) := by
  cases item with
  | pipe => cases stands
  | operand o =>
    simp only [Item.ReadAs, Lexeme.operand] at stands
    split at stands
    · next f named =>
      cases stands
      have name : f.name = String.ofList (c :: rest.takeWhile isNameChar) := by
        simpa using List.find?_some named
      refine ⟨?_, .function f, head?_dropWhile_any isNameChar rest⟩
      simp [Item.chars, Operand.text, name, List.takeWhile_append_dropWhile]
    · cases stands

theorem begins_of_first {c : Char} {rest after : List Char} {l : Lexeme} {item : Item}
    (h : Lexeme.first c rest = (l, after)) (stands : item.ReadAs l) :
    item.Begins (c :: rest) after := by
  have unread (d : Char) : ¬ item.ReadAs (.unexpected d) := by
    intro unexpected
    cases item <;> cases unexpected
  unfold Lexeme.first at h
  split at h
  · next mark =>
    subst mark
    split at h
    · next found =>
      cases h
      exact begins_quoted found stands
    · cases h
      exact absurd stands (unread _)
  split at h
  · next mark =>
    subst mark
    split at h
    · next found =>
      cases h
      exact begins_raw found stands
    · cases h
      exact absurd stands (unread _)
  split at h
  · next dot =>
    subst dot
    split at h
    · next found =>
      cases h
      exact begins_dot (by rw [found]) stands
    · next names _ some found =>
      cases h
      cases names with
      | nil => exact absurd rfl some
      | cons name names => exact begins_chain found stands
  split at h
  · cases h
    exact begins_word stands
  split at h
  · next pipe =>
    cases h
    subst pipe
    cases item with
    | pipe => exact ⟨rfl, trivial, rfl⟩
    | operand o => cases stands
  · cases h
    exact absurd stands (unread _)

inductive Spaced : List Item → List Char → Prop
  | nil : Spaced [] []
  | blank {items : List Item} {c : Char} {cs : List Char} (blank : isBlank c = true)
      (later : Spaced items cs) : Spaced items (c :: cs)
  | item {item : Item} {items : List Item} {cs after : List Char} (begins : item.Begins cs after)
      (later : Spaced items after) : Spaced (item :: items) cs

theorem lexemes_of_spaced {items : List Item} {cs : List Char} (h : Spaced items cs) :
    List.Forall₂ Item.ReadAs items (lexemes cs) := by
  induction h with
  | nil =>
    rw [lexemes_nil]
    exact .nil
  | blank blank _ ih =>
    rw [lexemes_cons, if_pos blank]
    exact ih
  | item begins _ ih =>
    obtain ⟨l, stands, read⟩ :=
      lexemes_of_isFirst (isFirst_of_wellFormed begins.written begins.apart)
    rw [begins.split, read]
    exact .cons stands ih

theorem spaced_of_lexemes {items : List Item} {cs : List Char}
    (h : List.Forall₂ Item.ReadAs items (lexemes cs)) : Spaced items cs := by
  -- A lexeme is followed by fewer characters than it starts, so the induction is on their number.
  induction len : cs.length using Nat.strongRecOn generalizing items cs with
  | ind n ih =>
    subst len
    cases cs with
    | nil =>
      rw [lexemes_nil] at h
      cases h
      exact .nil
    | cons c rest =>
      rw [lexemes_cons] at h
      split at h
      · next blank => exact .blank blank (ih rest.length (by simp) h rfl)
      · cases h with
        | cons stands later =>
          have shorter := Nat.lt_succ_of_le (length_first_le c rest)
          exact .item (begins_of_first rfl stands) (ih _ shorter later rfl)

namespace Pipeline

theorem items_cons (c : Command) (p : Pipeline) :
    (⟨c, p.commands⟩ : Pipeline).items = c.items ++ .pipe :: p.items := rfl

theorem items_push (command : Command) (o : Operand) :
    Command.items { command with arguments := command.arguments ++ [o] } =
      command.items ++ [.operand o] := by
  simp [Command.items, Command.operands]

theorem readAs_of_ofLexemes {command? : Option Command} {ls : List Lexeme} {p : Pipeline}
    (h : ofLexemes command? ls = .ok p) :
    ∃ rest, p.items = command?.elim [] Command.items ++ rest ∧ List.Forall₂ Item.ReadAs rest ls := by
  fun_induction ofLexemes command? ls generalizing p with
  | case1 => cases h
  | case2 command =>
    cases h
    exact ⟨[], by simp [items], .nil⟩
  | case3 => cases h
  | case4 command ls ih =>
    obtain ⟨later, read, same⟩ := bind_eq_ok_iff.mp h
    cases same
    obtain ⟨rest, split, stand⟩ := ih read
    refine ⟨.pipe :: rest, ?_, .cons rfl stand⟩
    rw [items_cons, split]
    rfl
  | case5 l ls _ ih =>
    obtain ⟨o, stands, read⟩ := bind_eq_ok_iff.mp h
    obtain ⟨rest, split, stand⟩ := ih o read
    exact ⟨.operand o :: rest, split, .cons stands stand⟩
  | case6 command l ls _ ih =>
    obtain ⟨o, stands, read⟩ := bind_eq_ok_iff.mp h
    obtain ⟨rest, split, stand⟩ := ih o read
    refine ⟨.operand o :: rest, ?_, .cons stands stand⟩
    rw [split, Option.elim_some, items_push, List.append_assoc]
    rfl

theorem read_eq_ok_iff (cs : List Char) (p : Pipeline) :
    read cs = .ok p ↔ Spaced p.items cs := by
  constructor
  · intro h
    unfold read at h
    split at h
    · cases h
    · obtain ⟨rest, split, stand⟩ := readAs_of_ofLexemes h
      rw [split]
      exact spaced_of_lexemes stand
  · intro h
    have stand := lexemes_of_spaced h
    cases cs with
    | nil =>
      rw [lexemes_nil] at stand
      cases stand
    | cons c cs =>
      rw [read, if_neg (by simp)]
      exact ofLexemes_of_readAs stand

end Pipeline

/-! ### Writing pipelines -/

/-- The operands one after the other, with blanks between each two. -/
inductive Operand.Row : List Operand → List Char → Prop
  | last (o : Operand) : Row [o] o.text.toList
  | more (o : Operand) {os : List Operand} {gap cs : List Char} (parted : gap ≠ [])
      (blank : ∀ c ∈ gap, isBlank c = true) (later : Row os cs) :
      Row (o :: os) (o.text.toList ++ gap ++ cs)

/-- The commands as rows of operands, a pipe between each two and blanks around each. -/
inductive Pipeline.Written : Pipeline → List Char → Prop
  | last {c : Command} {front row back : List Char} (written : Operand.Row c.operands row)
      (blank : ∀ c ∈ front ++ back, isBlank c = true) : Written ⟨c, []⟩ (front ++ row ++ back)
  | more {c : Command} {front row back cs : List Char} {p : Pipeline}
      (written : Operand.Row c.operands row) (blank : ∀ c ∈ front ++ back, isBlank c = true)
      (later : Written p cs) : Written ⟨c, p.commands⟩ (front ++ row ++ back ++ '|' :: cs)

def Pipeline.WellFormed (p : Pipeline) : Prop := ∀ c ∈ p.commands, ∀ o ∈ c.operands, o.WellFormed

theorem runsInto_of_head? {rest : List Char}
    (h : rest.head?.all fun c => isBlank c || c == '|') (item : Item) :
    item.runsInto rest = false := by
  cases rest with
  | nil => exact runsInto_nil item
  | cons c rest =>
    have solid (p : Char → Bool) (names : ∀ c, p c = true → isBlank c = false)
        (pipe : p '|' = false) : p c = false := by
      by_contra inside
      have blank := names c (by simpa using inside)
      simp only [List.head?_cons, Option.all_some, blank, Bool.false_or, beq_iff_eq] at h
      subst h
      exact inside pipe
    have name := solid isNameChar (fun _ => isBlank_of_isNameChar) (by decide)
    have dot := solid (· == '.') (fun c dot => by rw [beq_iff_eq.mp dot]; decide) (by decide)
    have start : startsName c = false := by
      simp only [isNameChar, Bool.or_eq_false_iff] at name
      exact name.1
    unfold Item.runsInto
    split <;> simp [name, dot, start]

theorem spaced_blanks {gap : List Char} (blank : ∀ c ∈ gap, isBlank c = true) {items : List Item}
    {cs : List Char} (h : Spaced items cs) : Spaced items (gap ++ cs) := by
  induction gap with
  | nil => exact h
  | cons c gap ih =>
    rw [List.forall_mem_cons] at blank
    exact .blank blank.1 (ih blank.2)

theorem spaced_row {os : List Operand} {row : List Char} (written : Operand.Row os row)
    (each : ∀ o ∈ os, o.WellFormed) {items : List Item} {cs : List Char} (later : Spaced items cs)
    (apart : cs.head?.all fun c => isBlank c || c == '|') :
    Spaced (os.map .operand ++ items) (row ++ cs) := by
  induction written with
  | last o => exact .item ⟨rfl, each o (by simp), runsInto_of_head? apart _⟩ later
  | @more o os gap row parted blank _ ih =>
    rw [List.forall_mem_cons] at each
    have behind : (gap ++ (row ++ cs)).head?.all fun c => isBlank c || c == '|' := by
      obtain ⟨c, gap, rfl⟩ := List.exists_cons_of_ne_nil parted
      simp [blank c (by simp)]
    refine .item ⟨by simp [Item.chars], each.1, runsInto_of_head? behind _⟩ ?_
    exact spaced_blanks blank (ih each.2)

/-- Blanks behind a row and then the end or a pipe: nothing in the row is read on into them. -/
theorem spaced_command {c : Command} {front row back : List Char}
    (written : Operand.Row c.operands row) (blank : ∀ c ∈ front ++ back, isBlank c = true)
    (each : ∀ o ∈ c.operands, o.WellFormed) {items : List Item} {cs : List Char}
    (later : Spaced items cs) (apart : cs.head?.all (· == '|')) :
    Spaced (c.items ++ items) (front ++ row ++ back ++ cs) := by
  rw [List.forall_mem_append] at blank
  have behind : (back ++ cs).head?.all fun c => isBlank c || c == '|' := by
    cases back with
    | nil =>
      cases cs with
      | nil => rfl
      | cons d cs =>
        simp only [List.head?_cons, Option.all_some, beq_iff_eq] at apart
        simp [apart]
    | cons d back => simp [blank.2 d (by simp)]
  rw [List.append_assoc, List.append_assoc]
  exact spaced_blanks blank.1 (spaced_row written each (spaced_blanks blank.2 later) behind)

theorem spaced_written {p : Pipeline} {cs : List Char} (written : p.Written cs)
    (each : p.WellFormed) : Spaced p.items cs := by
  induction written with
  | @last c front cs back written blank =>
    have spaced := spaced_command written blank (each c (by simp [Pipeline.commands])) .nil rfl
    rw [List.append_nil, List.append_nil] at spaced
    simpa [Pipeline.items] using spaced
  | @more c front cs back after p written blank _ ih =>
    obtain ⟨here, later⟩ := List.forall_mem_cons.mp each
    have pipe : Spaced (.pipe :: p.items) ('|' :: after) :=
      .item ⟨rfl, trivial, rfl⟩ (ih later)
    exact spaced_command written blank here pipe rfl

/-! ### Blanks outside of literals -/

/-- The text without the blanks outside its quoted and back-quoted pieces. -/
def squeezed : Mode → List Char → List Char
  | _, [] => []
  | mode, c :: cs =>
    let kept := squeezed ((mode.next? c).getD .plain) cs
    if mode = .plain && isBlank c then kept else c :: kept

theorem squeezed_keep {mode next : Mode} {c : Char} (turns : mode.next? c = some next)
    (kept : mode = .plain → isBlank c = false) (cs : List Char) :
    squeezed mode (c :: cs) = c :: squeezed next cs := by
  have kept : ¬ (mode = .plain && isBlank c) = true := by simpa using kept
  rw [squeezed, turns, if_neg kept]
  rfl

theorem squeezed_drop {c : Char} (blank : isBlank c = true) (cs : List Char) :
    squeezed .plain (c :: cs) = squeezed .plain cs := by
  have turns : Mode.plain.next? c = some .plain := by
    rw [Mode.next?, if_neg, if_neg]
    · rintro rfl
      exact absurd blank (by decide)
    · rintro rfl
      exact absurd blank (by decide)
  rw [squeezed, turns, if_pos (by simpa using blank)]
  rfl

theorem squeezed_quotedRest {piece : List Char} (h : QuotedRest piece) (cs : List Char) :
    squeezed .quoted (piece ++ cs) = piece ++ squeezed .plain cs := by
  induction h with
  | mark =>
    have ends : Mode.quoted.next? '"' = some .plain := by decide
    exact squeezed_keep ends nofun cs
  | @escape c piece bare _ ih =>
    have escapes : Mode.quoted.next? '\\' = some .escaped := by decide
    have resumes : Mode.escaped.next? c = some .quoted := rfl
    rw [List.cons_append, List.cons_append, squeezed_keep escapes nofun,
      squeezed_keep resumes nofun, ih]
    rfl
  | @plain c piece bare mark escape _ ih =>
    have stays : Mode.quoted.next? c = some .quoted := by
      rw [Mode.next?, if_neg bare, if_neg mark, if_neg escape]
    rw [List.cons_append, squeezed_keep stays nofun, ih]
    rfl

theorem squeezed_raw {content : List Char} (plain : '\x60' ∉ content) (cs : List Char) :
    squeezed .raw (content ++ '\x60' :: cs) = content ++ '\x60' :: squeezed .plain cs := by
  induction content with
  | nil =>
    have ends : Mode.raw.next? '\x60' = some .plain := by decide
    exact squeezed_keep ends nofun cs
  | cons c content ih =>
    rw [List.mem_cons, not_or] at plain
    have stays : Mode.raw.next? c = some .raw := by
      rw [Mode.next?, if_neg (Ne.symm plain.1)]
    rw [List.cons_append, squeezed_keep stays nofun, ih plain.2]
    rfl

theorem squeezed_bare {taken : List Char}
    (h : ∀ c ∈ taken, isNameChar c = true ∨ c = '.' ∨ c = '|') (cs : List Char) :
    squeezed .plain (taken ++ cs) = taken ++ squeezed .plain cs := by
  induction taken with
  | nil => rfl
  | cons c taken ih =>
    rw [List.forall_mem_cons] at h
    have bare : isBlank c = false ∧ c ≠ '"' ∧ c ≠ '\x60' := by
      obtain name | rfl | rfl := h.1
      · refine ⟨isBlank_of_isNameChar name, ?_, ?_⟩ <;>
          rintro rfl <;> simp [isNameChar, startsName] at name
      · decide
      · decide
    have stays : Mode.plain.next? c = some .plain := by
      rw [Mode.next?, if_neg bare.2.1, if_neg bare.2.2]
    rw [List.cons_append, squeezed_keep stays fun _ => bare.1, ih h.2]
    rfl

theorem squeezed_chars {item : Item} (written : item.WellFormed) (cs : List Char) :
    squeezed .plain (item.chars ++ cs) = item.chars ++ squeezed .plain cs := by
  obtain ⟨piece, shape, quoted⟩ | ⟨content, shape, plain⟩ | ⟨-, bare⟩ := chars_of_wellFormed written
  · have opens : Mode.plain.next? '"' = some .quoted := by decide
    rw [shape, List.cons_append, squeezed_keep opens fun _ => by decide,
      squeezed_quotedRest quoted]
    rfl
  · have opens : Mode.plain.next? '\x60' = some .raw := by decide
    rw [shape, List.append_assoc, List.cons_append, List.singleton_append,
      squeezed_keep opens fun _ => by decide, squeezed_raw plain]
    simp
  · exact squeezed_bare bare cs

theorem squeezed_spaced {items : List Item} {cs : List Char} (h : Spaced items cs) :
    squeezed .plain cs = items.flatMap Item.chars := by
  induction h with
  | nil => rfl
  | blank blank _ ih => rw [squeezed_drop blank, ih]
  | item begins _ ih =>
    rw [begins.split, squeezed_chars begins.written, ih]
    rfl

namespace Pipeline

def joined (p : Pipeline) : List Char :=
  ['|'].intercalate (p.commands.map fun c => c.operands.flatMap (·.text.toList))

theorem flatMap_items (c : Command) :
    c.items.flatMap Item.chars = c.operands.flatMap (·.text.toList) := by
  rw [Command.items, List.flatMap_map]
  rfl

theorem flatMap_chars_items (p : Pipeline) : p.items.flatMap Item.chars = p.joined := by
  obtain ⟨first, later⟩ := p
  induction later generalizing first with
  | nil => simp [items, joined, commands, flatMap_items]
  | cons c later ih =>
    rw [show (⟨first, c :: later⟩ : Pipeline) = ⟨first, commands ⟨c, later⟩⟩ from rfl, items_cons,
      List.flatMap_append, List.flatMap_cons, ih, flatMap_items]
    simp [joined, commands, List.intercalate_cons_cons, Item.chars]

theorem wellFormed_of_spaced {items : List Item} {cs : List Char} (h : Spaced items cs) :
    ∀ item ∈ items, item.WellFormed := by
  induction h with
  | nil => simp
  | blank _ _ ih => exact ih
  | item begins _ ih => exact List.forall_mem_cons.mpr ⟨begins.written, ih⟩

theorem wellFormed_of_items {p : Pipeline} (h : ∀ item ∈ p.items, item.WellFormed) :
    p.WellFormed := by
  intro c hc o ho
  refine h (.operand o) ?_
  have inside : Item.operand o ∈ c.items := List.mem_map_of_mem ho
  obtain rfl | later := List.mem_cons.mp hc
  · exact List.mem_append_left _ inside
  · exact List.mem_append_right _ (List.mem_flatMap.mpr ⟨c, later, List.mem_cons_of_mem _ inside⟩)

theorem exists_row : ∀ os : List Operand, os ≠ [] → ∃ row, Operand.Row os row
  | [], h => absurd rfl h
  | [o], _ => ⟨_, .last o⟩
  | o :: o' :: os, _ => by
    obtain ⟨row, written⟩ := exists_row (o' :: os) (List.cons_ne_nil _ _)
    have blank : ∀ c ∈ [' '], isBlank c = true := List.all_eq_true.mp rfl
    exact ⟨_, .more o (List.cons_ne_nil _ _) blank written⟩

theorem exists_written (p : Pipeline) : ∃ cs, p.Written cs := by
  have blank : ∀ c ∈ ([] : List Char) ++ [], isBlank c = true := by simp
  obtain ⟨first, later⟩ := p
  induction later generalizing first with
  | nil =>
    obtain ⟨row, written⟩ := exists_row first.operands (List.cons_ne_nil _ _)
    exact ⟨_, .last written blank⟩
  | cons c later ih =>
    obtain ⟨row, written⟩ := exists_row first.operands (List.cons_ne_nil _ _)
    obtain ⟨cs, behind⟩ := ih c
    exact ⟨_, .more written blank behind⟩

theorem read_written {p : Pipeline} {cs : List Char} (each : p.WellFormed) (written : p.Written cs) :
    read cs = .ok p :=
  (read_eq_ok_iff cs p).mpr (spaced_written written each)

/-- A pipeline is read back however it is written. What is read is well formed, is the text but
for the blanks outside its literals, and is read back in its turn. -/
theorem read_and_written :
    (∀ (p : Pipeline) (cs : List Char), p.WellFormed → p.Written cs → read cs = .ok p) ∧
      ∀ (cs : List Char) (p : Pipeline), read cs = .ok p →
        p.commands ≠ [] ∧ (∀ c ∈ p.commands, c.operands ≠ []) ∧ p.WellFormed ∧
        squeezed .plain cs = p.joined ∧
        (∃ cs', p.Written cs') ∧ ∀ cs', p.Written cs' → read cs' = .ok p := by
  refine ⟨fun p cs => read_written, ?_⟩
  intro cs p read
  have spaced := (read_eq_ok_iff cs p).mp read
  have each := wellFormed_of_items (wellFormed_of_spaced spaced)
  have text := squeezed_spaced spaced
  rw [flatMap_chars_items] at text
  refine ⟨List.cons_ne_nil _ _, ?_, each, text, exists_written p, fun cs' => read_written each⟩
  intro c _
  exact List.cons_ne_nil _ _

theorem read_and_written_of_quoted_pipe :
    let p : Pipeline := ⟨⟨.function .getenv, [.literal " |" "\" |\""]⟩, [⟨.field ["A", "B"], []⟩]⟩
    p.WellFormed ∧ p.Written "getenv\t\" |\" | .A.B\n".toList ∧
      read "getenv\t\" |\" | .A.B\n".toList = .ok p ∧
      read "getenv\" |\"|.A.B".toList = .ok p ∧
      squeezed .plain "getenv\" |\"|.A.B".toList = p.joined := by
  intro p
  have getenv : (Operand.function .getenv).WellFormed := .function .getenv
  have quoted : (Operand.literal " |" "\" |\"").WellFormed := .quoted (by decide)
  have chain : (Operand.field ["A", "B"]).WellFormed := by
    refine .field ?_
    intro n hn
    simp only [List.mem_cons, List.not_mem_nil, or_false] at hn
    obtain rfl | rfl := hn
    · exact ⟨'A', [], rfl, rfl, by simp⟩
    · exact ⟨'B', [], rfl, rfl, by simp⟩
  have each : p.WellFormed := by
    simp only [Pipeline.WellFormed, p, commands, Command.operands, List.forall_mem_cons]
    exact ⟨⟨getenv, quoted, by simp⟩, ⟨chain, by simp⟩, by simp⟩
  have compact : read "getenv\" |\"|.A.B".toList = .ok p := by
    rw [read_eq_ok_iff]
    have last : Spaced [.operand (.field ["A", "B"])] ".A.B".toList :=
      .item ⟨rfl, chain, rfl⟩ .nil
    have pipe : Spaced [.pipe, .operand (.field ["A", "B"])] "|.A.B".toList :=
      .item ⟨rfl, trivial, rfl⟩ last
    have text : Spaced [.operand (.literal " |" "\" |\""), .pipe, .operand (.field ["A", "B"])]
        "\" |\"|.A.B".toList := .item ⟨rfl, quoted, rfl⟩ pipe
    have start : (Item.operand (.function .getenv)).Begins "getenv\" |\"|.A.B".toList
        "\" |\"|.A.B".toList := ⟨rfl, getenv, rfl⟩
    exact .item start text
  have written : p.Written "getenv\t\" |\" | .A.B\n".toList := by
    have last : Written ⟨⟨.field ["A", "B"], []⟩, []⟩ ([' '] ++ ".A.B".toList ++ ['\n']) :=
      .last (.last _) (List.all_eq_true.mp rfl)
    have row : Operand.Row p.first.operands
        ("getenv".toList ++ ['\t'] ++ "\" |\"".toList) :=
      .more _ (List.cons_ne_nil _ _) (List.all_eq_true.mp rfl) (.last _)
    have around : ∀ c ∈ [] ++ [' '], isBlank c = true := List.all_eq_true.mp rfl
    exact .more row around last
  obtain ⟨-, -, -, text, -, back⟩ := read_and_written.2 _ p compact
  exact ⟨each, written, read_and_written.1 p _ each written, compact, text⟩

end Pipeline

end CollectionRun.Template
