import CollectionRun.Proofs.Template.Scanning

namespace CollectionRun.Template

open Text

theorem dropWhile_of_head {p : Char → Bool} {cs : List Char} (h : cs.head?.any p = false) :
    cs.dropWhile p = cs := by
  cases cs with
  | nil => rfl
  | cons c cs => rw [List.dropWhile_cons_of_neg (by simpa using h)]

theorem trim_blanks {front back cs : List Char} (hf : ∀ c ∈ front, isBlank c = true)
    (solid : Solid cs) (hb : ∀ c ∈ back, isBlank c = true) : trim (front ++ cs ++ back) = cs := by
  have starts : (cs ++ back).head?.any isBlank = false := by
    rw [List.head?_append_of_ne_nil _ solid.ne_nil]
    have := solid.starts
    revert this
    cases cs.head? <;> simp +contextual [isSolid]
  have ends : cs.reverse.head?.any isBlank = false := by
    rw [List.head?_reverse]
    have := solid.ends
    revert this
    cases cs.getLast? <;> simp +contextual [isSolid]
  rw [trim, trimBy, trimStartBy, trimEndBy, List.append_assoc, List.dropWhile_append_of_pos hf,
    dropWhile_of_head starts, List.reverse_append, List.dropWhile_append_of_pos (by simpa using hb),
    dropWhile_of_head ends, List.reverse_reverse]

structure IsTrimmed (front back : Bool) (text kept : List Char) : Prop where
  parts : ∃ lead trail, text = lead ++ kept ++ trail ∧ (∀ c ∈ lead ++ trail, isBlank c = true) ∧
    (front = false → lead = []) ∧ (back = false → trail = [])
  starts : front = true → kept.head?.any isBlank = false
  ends : back = true → kept.getLast?.any isBlank = false

theorem isBlank_of_mem_takeWhile {cs : List Char} {c : Char} (h : c ∈ cs.takeWhile isBlank) :
    isBlank c = true :=
  List.all_eq_true.1 List.all_takeWhile c h

theorem trimEnd_parts (cs : List Char) :
    ∃ trail, cs = trimEnd cs ++ trail ∧ ∀ c ∈ trail, isBlank c = true := by
  refine ⟨(cs.reverse.takeWhile isBlank).reverse, ?_, fun c hc => ?_⟩
  · rw [trimEnd, trimEndBy, ← List.reverse_append, List.takeWhile_append_dropWhile,
      List.reverse_reverse]
  · exact isBlank_of_mem_takeWhile (List.mem_reverse.1 hc)

theorem getLast?_trimEnd (cs : List Char) : (trimEnd cs).getLast?.any isBlank = false := by
  rw [trimEnd, trimEndBy, List.getLast?_reverse]
  exact head?_dropWhile_any isBlank cs.reverse

theorem isTrimmed_trimmed (front back : Bool) (text : List Char) :
    IsTrimmed front back text (trimmed front back text) := by
  -- The start is trimmed first, and trimming the end leaves a prefix of that.
  obtain ⟨lead, mid, split, blank, untouched, starts, same⟩ : ∃ lead mid, text = lead ++ mid ∧
      (∀ c ∈ lead, isBlank c = true) ∧ (front = false → lead = []) ∧
      (front = true → mid.head?.any isBlank = false) ∧
      trimmed front back text = if back then trimEnd mid else mid := by
    cases front with
    | false => exact ⟨[], text, rfl, nofun, fun _ => rfl, nofun, rfl⟩
    | true =>
      exact ⟨text.takeWhile isBlank, text.dropWhile isBlank,
        List.takeWhile_append_dropWhile.symm, fun c hc => isBlank_of_mem_takeWhile hc, nofun,
        fun _ => head?_dropWhile_any isBlank text, rfl⟩
  rw [same, split]
  cases back with
  | false =>
    exact ⟨⟨lead, [], by simp, by simpa using blank, untouched, fun _ => rfl⟩, starts, nofun⟩
  | true =>
    obtain ⟨trail, parts, blank'⟩ := trimEnd_parts mid
    refine ⟨⟨lead, trail, ?_, ?_, untouched, nofun⟩, fun h => ?_, fun _ => getLast?_trimEnd mid⟩
    · rw [if_pos rfl, List.append_assoc, ← parts]
    · exact List.forall_mem_append.2 ⟨blank, blank'⟩
    · rw [if_pos rfl]
      have := starts h
      rw [parts] at this
      cases kept : trimEnd mid with
      | nil => rfl
      | cons c cs =>
        rw [kept, List.cons_append, List.head?_cons] at this
        exact this

/-- What stands between braces and content: blanks, and behind the braces a trim mark, which a
blank parts from the content. -/
structure Margin where
  trims : Bool
  blanks : List Char
  blank : ∀ c ∈ blanks, isBlank c = true
  parted : trims = true → blanks ≠ []

namespace Margin

def front (m : Margin) : List Char := if m.trims then '-' :: m.blanks else m.blanks

def back (m : Margin) : List Char := if m.trims then m.blanks ++ ['-'] else m.blanks

theorem dropFrontMark_append (m : Margin) {cs : List Char} (solid : cs.head?.any isSolid = true) :
    Body.dropFrontMark (m.front ++ cs) = (m.trims, m.blanks ++ cs) := by
  obtain ⟨trims, blanks, blank, parted⟩ := m
  cases trims with
  | true =>
    cases blanks with
    | nil => exact absurd rfl (parted rfl)
    | cons c blanks =>
      have : isBlank c = true := blank c List.mem_cons_self
      show Body.dropFrontMark ('-' :: c :: (blanks ++ cs)) = _
      rw [Body.dropFrontMark, if_pos this]
      rfl
  | false =>
    have front : (blanks ++ cs).head? ≠ some '-' := by
      intro dash
      cases blanks with
      | nil =>
        rw [List.nil_append] at dash
        rw [dash] at solid
        exact absurd solid (by decide)
      | cons c blanks =>
        obtain rfl := Option.some.inj dash
        exact absurd (blank '-' List.mem_cons_self) (by decide)
    show Body.dropFrontMark (blanks ++ cs) = (false, blanks ++ cs)
    revert front
    generalize blanks ++ cs = all
    intro front
    unfold Body.dropFrontMark
    split
    · exact absurd rfl front
    · exact absurd rfl front
    · rfl

theorem dropBackMark_append (m : Margin) {cs : List Char} (solid : cs.getLast?.any isSolid = true) :
    Body.dropBackMark (cs ++ m.back) = (cs ++ m.blanks, m.trims) := by
  obtain ⟨trims, blanks, blank, parted⟩ := m
  cases trims with
  | true =>
    have ⟨c, later, shape⟩ := List.exists_cons_of_ne_nil
      (fun h => parted rfl (List.reverse_eq_nil_iff.1 h) : blanks.reverse ≠ [])
    have : isBlank c = true := blank c (List.mem_reverse.1 (shape ▸ List.mem_cons_self))
    have reversed : (cs ++ (blanks ++ ['-'])).reverse = '-' :: c :: (later ++ cs.reverse) := by
      simp [shape]
    show Body.dropBackMark (cs ++ (blanks ++ ['-'])) = _
    simp only [Body.dropBackMark, reversed, if_pos this]
    have : blanks = later.reverse ++ [c] := by
      rw [← List.reverse_cons, ← shape, List.reverse_reverse]
    simp [this]
  | false =>
    have back : (cs ++ blanks).reverse.head? ≠ some '-' := by
      intro dash
      rw [List.head?_reverse] at dash
      rcases List.eq_nil_or_concat blanks with rfl | ⟨blanks, c, rfl⟩
      · rw [List.append_nil] at dash
        rw [dash] at solid
        exact absurd solid (by decide)
      · rw [List.concat_eq_append, ← List.append_assoc, List.getLast?_concat] at dash
        obtain rfl := Option.some.inj dash
        exact absurd (blank '-' (by simp)) (by decide)
    show Body.dropBackMark (cs ++ blanks) = (cs ++ blanks, false)
    unfold Body.dropBackMark
    split
    · next h => exact absurd (by rw [h]; rfl) back
    · rfl

theorem ofChars_append (front back : Margin) {cs : List Char} (solid : Solid cs) :
    Body.ofChars (front.front ++ cs ++ back.back) = ⟨front.trims, cs, back.trims⟩ := by
  have starts : (cs ++ back.back).head?.any isSolid = true := by
    rw [List.head?_append_of_ne_nil _ solid.ne_nil]
    exact solid.starts
  have ends : (front.blanks ++ cs).getLast?.any isSolid = true := by
    rw [List.getLast?_append_of_ne_nil _ solid.ne_nil]
    exact solid.ends
  have marked : Body.dropFrontMark (front.front ++ cs ++ back.back) =
      (front.trims, front.blanks ++ cs ++ back.back) := by
    rw [List.append_assoc, front.dropFrontMark_append starts, List.append_assoc]
  rw [Body.ofChars, marked, back.dropBackMark_append ends,
    trim_blanks front.blank solid back.blank]

theorem passes_mark : Passes ['-'] := passes_of_forall (by simp)

theorem passes_front (m : Margin) : Passes m.front := by
  unfold front
  split
  · exact passes_mark.append (passes_of_blank m.blank)
  · exact passes_of_blank m.blank

theorem passes_back (m : Margin) : Passes m.back := by
  unfold back
  split
  · exact (passes_of_blank m.blank).append passes_mark
  · exact passes_of_blank m.blank

end Margin

/-- A pipeline as it is spelled, or a comment. The scan of an action knows of quotes in comments
as elsewhere, so a comment has none here. -/
inductive Content where
  | pipeline (p : Pipeline) (cs : List Char) (spelled : Spelled p.items cs)
  | comment (cs : List Char) (mark : '"' ∉ cs) (back : '\x60' ∉ cs)
      (braces : ¬ closingBraces <:+: cs)

namespace Content

def chars : Content → List Char
  | pipeline _ cs _ => cs
  | comment cs _ _ _ => '/' :: '*' :: cs ++ ['*', '/']

def pipeline? : Content → Option Pipeline
  | pipeline p _ _ => some p
  | comment _ _ _ _ => none

theorem solid (c : Content) : Solid c.chars := by
  cases c with
  | pipeline p cs spelled => exact spelled.solid
  | comment cs mark back braces =>
    refine ⟨by rw [chars, List.cons_append, List.head?_cons]; decide, ?_⟩
    rw [chars, show ['*', '/'] = ['*'] ++ ['/'] from rfl, ← List.append_assoc,
      List.getLast?_concat]
    decide

theorem passes (c : Content) : Passes c.chars := by
  cases c with
  | pipeline p cs spelled => exact spelled.passes
  | comment cs mark back braces =>
    have open_ : Passes ['/', '*'] := passes_of_forall (by simp)
    have body : Passes (cs ++ ['*']) := by
      refine passes_of_plain (by simpa using mark) (by simpa using back) ?_ (by simp)
      rw [List.infix_concat_iff, not_or]
      exact ⟨not_braces_concat_of_ne (by decide) cs, braces⟩
    have close : Passes ['/'] := passes_of_forall (by simp)
    have all := (open_.append body).append close
    rwa [show ['/', '*'] ++ (cs ++ ['*']) ++ ['/'] = '/' :: '*' :: cs ++ ['*', '/'] by simp] at all

theorem pipeline?_read (c : Content) (before after : Bool) :
    Body.pipeline? ⟨before, c.chars, after⟩ = .ok c.pipeline? := by
  cases c with
  | pipeline p cs spelled =>
    have plain : Body.opensComment cs = false := by
      rw [Body.opensComment, Bool.eq_false_iff, ne_eq, List.isPrefixOf_iff_prefix]
      rintro ⟨rest, same⟩
      exact spelled.head?_ne (by rw [← same]; rfl)
    show (if Body.opensComment cs then _ else (Pipeline.read cs).map some) = _
    rw [plain, if_neg (by simp), Pipeline.read_of_spelled spelled]
    rfl
  | comment cs mark back braces =>
    have closes : Body.closesComment ('/' :: '*' :: cs ++ ['*', '/']) = true :=
      List.isSuffixOf_iff_suffix.2 ⟨'/' :: '*' :: cs, rfl⟩
    show (if Body.closesComment ('/' :: '*' :: cs ++ ['*', '/']) then _ else _) = _
    rw [if_pos closes]
    rfl

end Content

structure WrittenAction where
  front : Margin
  content : Content
  back : Margin

namespace WrittenAction

def body (a : WrittenAction) : List Char := a.front.front ++ a.content.chars ++ a.back.back

def chars (a : WrittenAction) : List Char := openingBraces ++ a.body ++ closingBraces

theorem ofChars_body (a : WrittenAction) :
    Body.ofChars a.body = ⟨a.front.trims, a.content.chars, a.back.trims⟩ :=
  Margin.ofChars_append a.front a.back a.content.solid

theorem passes_body (a : WrittenAction) : Passes a.body :=
  (a.front.passes_front.append a.content.passes).append a.back.passes_back

def nodes (a : WrittenAction) (line : Nat) : List Node :=
  a.content.pipeline?.toList.map fun p => .action ⟨p, line⟩

end WrittenAction

/-- Texts with an action between each two. No text has opening braces in it, and none before an
action ends in a brace. -/
inductive Layout where
  | last (text : List Char) (plain : ¬ openingBraces <:+: text)
  | more (text : List Char) (plain : ¬ openingBraces <:+: text)
      (ends : text.getLast? ≠ some '\x7b') (action : WrittenAction) (rest : Layout)

namespace Layout

def chars : Layout → List Char
  | last text _ => text
  | more text _ _ a rest => text ++ a.chars ++ rest.chars

/-- The nodes of a layout that stands behind the characters `before` of its source; `trims` tells
whether the action before it trims. -/
def nodes (before : List Char) (trims : Bool) : Layout → List Node
  | last text _ => textNode (trimmed trims false text)
  | more text _ _ a rest =>
    textNode (trimmed trims a.front.trims text) ++
      a.nodes (1 + (before ++ text).count '\n') ++
      rest.nodes (before ++ text ++ a.chars) a.back.trims

def segments (line : Nat) : Layout → List Segment
  | last text _ => [.text text]
  | more text _ _ a rest =>
    .text text :: .body a.body (line + text.count '\n') ::
      rest.segments (line + text.count '\n' + a.body.count '\n')

theorem segmentsFrom_chars (l : Layout) (line : Nat) :
    segmentsFrom line l.chars = l.segments line := by
  induction l generalizing line with
  | last text plain => exact segmentsFrom_of_plain line plain
  | more text plain ends a rest ih =>
    have shape : (more text plain ends a rest).chars =
        text ++ (openingBraces ++ (a.body ++ (closingBraces ++ rest.chars))) := by
      simp [chars, WrittenAction.chars]
    rw [shape, segmentsFrom_append line plain ends a.passes_body, ih]
    rfl

theorem nodesOf_segments (name : String) (l : Layout) (before : List Char) (trims : Bool) :
    nodesOf name trims (l.segments (1 + before.count '\n')) = .ok (l.nodes before trims) := by
  induction l generalizing before trims with
  | last text plain => simp [segments, nodesOf, trimsBefore, nodes]
  | more text plain ends a rest ih =>
    have line : 1 + before.count '\n' + text.count '\n' + a.body.count '\n' =
        1 + (before ++ text ++ a.chars).count '\n' := by
      simp [WrittenAction.chars, openingBraces, closingBraces, List.count_append]
      omega
    have later := ih (before ++ text ++ a.chars) a.back.trims
    rw [← line] at later
    have sum : 1 + before.count '\n' + text.count '\n' = 1 + (before ++ text).count '\n' := by
      rw [List.count_append]
      omega
    simp only [segments, nodesOf, trimsBefore, a.ofChars_body, a.content.pipeline?_read, later,
      Except.mapError, nodes, WrittenAction.nodes, ← sum]
    cases a.content.pipeline? with
    | none => simp [bind, Except.bind, pure, Except.pure]
    | some p => simp [bind, Except.bind, pure, Except.pure]

theorem segments_ofList (l : Layout) : Template.segments (String.ofList l.chars) = l.segments 1 := by
  rw [Template.segments, String.toList_ofList, segmentsFrom_chars]

theorem reads (l : Layout) (name : String) :
    Template.read (String.ofList l.chars) name = .ok ⟨name, l.nodes [] false⟩ := by
  rw [Template.read, segments_ofList]
  have := nodesOf_segments name l [] false
  rw [List.count_nil] at this
  rw [this]
  rfl

/-- The nodes of a source are those of its parts: every text, trimmed where an action next to it
says so and only of blanks, and every pipeline, on the line on which its braces open. -/
theorem read_chars (l : Layout) (name : String) :
    Template.read (String.ofList l.chars) name = .ok ⟨name, l.nodes [] false⟩ ∧
      (∀ front back text, IsTrimmed front back text (trimmed front back text)) ∧
      ∀ text, ¬ openingBraces <:+: text →
        Template.read (String.ofList text) name = .ok ⟨name, textNode text⟩ := by
  exact ⟨l.reads name, isTrimmed_trimmed, fun text plain => (last text plain).reads name⟩

theorem read_chars_of_quoted_braces : ∃ l : Layout,
    l.chars = "a \x7d\n \x7b\x7b- getenv \"\x7d\x7d\x7b\x7b\" -\x7d\x7d b\n\x7b\x7b/* \x7d */\x7d\x7d\x7b".toList ∧
    Template.read (String.ofList l.chars) "t" = .ok ⟨"t",
      [.text "a \x7d",
        .action ⟨⟨⟨.function .getenv, [.literal "\x7d\x7d\x7b\x7b" "\"\x7d\x7d\x7b\x7b\""]⟩, []⟩, 2⟩,
        .text "b\n", .text "\x7b"]⟩ ∧
    ¬ openingBraces <:+: ['\x7d', '\x7b'] ∧
    Template.read (String.ofList ['\x7d', '\x7b']) "t" = .ok ⟨"t", textNode ['\x7d', '\x7b']⟩ := by
  have spelled : Spelled
      (Pipeline.items ⟨⟨.function .getenv, [.literal "\x7d\x7d\x7b\x7b" "\"\x7d\x7d\x7b\x7b\""]⟩, []⟩)
      ("getenv".toList ++ [' '] ++ "\"\x7d\x7d\x7b\x7b\"".toList) :=
    .more (.function .getenv) (List.all_eq_true.mp rfl) rfl (.last (.quoted (by decide)))
  let marked : Margin := ⟨true, [' '], List.all_eq_true.mp rfl, fun _ => List.cons_ne_nil _ _⟩
  let bare : Margin := ⟨false, [], List.forall_mem_nil _, nofun⟩
  let l : Layout := .more "a \x7d\n ".toList (by decide) (by decide)
    ⟨marked, .pipeline _ _ spelled, marked⟩
    (.more " b\n".toList (by decide) (by decide)
      ⟨bare, .comment " \x7d ".toList (by decide) (by decide) (by decide), bare⟩
      (.last ['\x7b'] (by decide)))
  exact ⟨l, rfl, (read_chars l "t").1, by decide, (read_chars l "t").2.2 _ (by decide)⟩

end Layout

end CollectionRun.Template
