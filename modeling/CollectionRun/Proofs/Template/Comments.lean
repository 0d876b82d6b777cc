import CollectionRun.Proofs.Template.Layout
import CollectionRun.Proofs.Template.Rendering

/-!
A comment ends where its action ends, and the scan for that end knows of quoted pieces, not of
comments: a mark in a comment opens a piece that may run on over what follows.
`Commented.harmless` says that no text is lost so, and `Commented.render_outside` that then, and
only then, what is rendered is the text outside the comments.
-/

namespace CollectionRun.Template

open Text

def written (comment : List Char) : List Char := '/' :: '*' :: (comment ++ ['*', '/'])

/-- Texts with a comment between each two. No text has opening braces in it, none before a comment
ends in a brace, and no comment has closing braces in it. -/
inductive Commented where
  | last (text : List Char) (plain : ¬ openingBraces <:+: text)
  | more (text : List Char) (plain : ¬ openingBraces <:+: text)
      (ends : text.getLast? ≠ some '\x7b') (comment : List Char)
      (braces : ¬ closingBraces <:+: comment) (rest : Commented)

namespace Commented

def chars : Commented → List Char
  | last text _ => text
  | more text _ _ comment _ rest =>
    text ++ (openingBraces ++ (written comment ++ (closingBraces ++ rest.chars)))

def outside : Commented → List Char
  | last text _ => text
  | more text _ _ _ _ rest => text ++ rest.outside

def comments : Commented → List (List Char)
  | last _ _ => []
  | more _ _ _ comment _ rest => comment :: rest.comments

/-- Where a comment leaves a quoted piece open, the next comment follows at once, and the last
comment leaves none open. -/
def harmless : Commented → Mode → Bool
  | last _ _, mode => mode = .plain
  | more text _ _ comment _ rest, mode =>
    (mode = .plain || text.isEmpty) && (mode.after? (written comment)).any rest.harmless

end Commented

theorem getLast?_written (comment : List Char) : (written comment).getLast? = some '/' := by
  rw [written, ← List.cons_append, ← List.cons_append, List.append_cons, List.getLast?_concat]

theorem not_braces_written {comment : List Char} (braces : ¬ closingBraces <:+: comment) :
    ¬ closingBraces <:+: written comment := by
  have shape : written comment = '/' :: '*' :: ((comment ++ ['*']) ++ ['/']) := by simp [written]
  rw [shape, List.infix_cons_iff, List.infix_cons_iff, List.infix_concat_iff, List.infix_concat_iff]
  rintro (front | front | back | back | inside)
  · exact not_braces_of_ne (by decide) _ front
  · exact not_braces_of_ne (by decide) _ front
  · exact not_braces_concat_of_ne (by decide) _ back
  · exact not_braces_concat_of_ne (by decide) _ back
  · exact braces inside

theorem Mode.after?_append (mode : Mode) (cs ds : List Char) :
    mode.after? (cs ++ ds) = (mode.after? cs).bind fun next => next.after? ds := List.foldlM_append

theorem not_escaped_of_written {mode next : Mode} {comment : List Char}
    (h : mode.after? (written comment) = some next) : next ≠ .escaped := by
  rw [show written comment = '/' :: '*' :: (comment ++ ['*']) ++ ['/'] by simp [written],
    Mode.after?_append] at h
  obtain ⟨before, _, last⟩ := Option.bind_eq_some_iff.mp h
  cases before <;> cases last <;> decide

theorem closeFrom_closingBraces_of_ne {mode : Mode} (inside : mode ≠ .plain)
    (settled : mode ≠ .escaped) (rest : List Char) :
    closeFrom mode (closingBraces ++ rest) = behind closingBraces (closeFrom mode rest) := by
  have stays : mode.next? '\x7d' = some mode := by
    cases mode with
    | plain => exact absurd rfl inside
    | escaped => exact absurd rfl settled
    | _ => rfl
  rw [show closingBraces ++ rest = '\x7d' :: '\x7d' :: rest from rfl,
    closeFrom_cons stays fun plain => absurd plain inside,
    closeFrom_cons stays fun plain => absurd plain inside, behind_behind]
  rfl

theorem after?_openingBraces {mode : Mode} (settled : mode ≠ .escaped) :
    mode.after? openingBraces = some mode := by
  cases mode with
  | escaped => exact absurd rfl settled
  | _ => rfl

theorem closeFrom_openingBraces (mode : Mode) (rest : List Char) :
    closeFrom mode (openingBraces ++ rest) =
      (mode.after? openingBraces).bind fun next => behind openingBraces (closeFrom next rest) :=
  closeFrom_append (by decide) (by decide) mode rest

/-! ### What an action leaves -/

/-- If the scan of an action ends, it leaves texts and comments, of which at most `n` characters
are outside the comments. -/
def Leaves (n : Nat) (found : Option (List Char × List Char)) : Prop :=
  ∀ body after, found = some (body, after) →
    ∃ l : Commented, after = l.chars ∧ l.outside.length ≤ n

theorem leaves_none (n : Nat) : Leaves n none := nofun

theorem Leaves.mono {n m : Nat} {found : Option (List Char × List Char)} (h : Leaves n found)
    (le : n ≤ m) : Leaves m found := by
  intro body after same
  obtain ⟨l, chars, few⟩ := h body after same
  exact ⟨l, chars, Nat.le_trans few le⟩

theorem Leaves.behind {n : Nat} {found : Option (List Char × List Char)} (h : Leaves n found)
    (cs : List Char) : Leaves n (behind cs found) := by
  intro body after same
  obtain ⟨⟨body', after'⟩, scanned, moved⟩ := Option.map_eq_some_iff.mp same
  obtain ⟨-, rfl⟩ := Prod.mk.inj moved
  exact h body' after' scanned

theorem leaves_bind {n : Nat} {mode? : Option Mode} {cs rest : List Char}
    (h : ∀ mode, mode? = some mode → Leaves n (closeFrom mode rest)) :
    Leaves n (mode?.bind fun mode => behind cs (closeFrom mode rest)) := by
  cases found : mode? with
  | none => exact leaves_none n
  | some mode => exact (h mode found).behind cs

section

variable {text tail : List Char} {n : Nat}
  (cut : ∀ cs, cs <:+ text → ∃ l : Commented, cs ++ tail = l.chars ∧
    l.outside.length ≤ cs.length + n)
  (front : tail.head? ≠ some '\x7d') (later : ∀ mode, Leaves n (closeFrom mode tail))

include cut front later

theorem leaves_text (mode : Mode) : Leaves (text.length + n) (closeFrom mode (text ++ tail)) := by
  induction text generalizing mode with
  | nil => exact (later mode).mono (Nat.le_add_left n 0)
  | cons c cs ih =>
    have shorter : ∀ mode, Leaves (cs.length + n) (closeFrom mode (cs ++ tail)) :=
      ih fun ds suffix => cut ds (suffix.trans (List.suffix_cons c cs))
    have longer : cs.length + n ≤ (c :: cs).length + n := by
      rw [List.length_cons]
      omega
    rw [List.cons_append]
    by_cases closes : mode = .plain ∧ closingBraces <+: c :: (cs ++ tail)
    · -- Both braces stand in the text, since nothing that follows one begins with a brace.
      obtain ⟨rfl, after, same⟩ := closes
      cases cs with
      | nil => exact absurd (congrArg List.head? (List.cons.inj same).2).symm front
      | cons d ds =>
        obtain ⟨rfl, rest⟩ := List.cons.inj same
        obtain ⟨rfl, rest⟩ := List.cons.inj rest
        obtain ⟨l, chars, few⟩ := cut ds ((List.suffix_cons _ ds).trans (List.suffix_cons _ _))
        rintro body after' scanned
        rw [show '\x7d' :: (('\x7d' :: ds) ++ tail) = closingBraces ++ (ds ++ tail) from rfl,
          closeFrom_closingBraces] at scanned
        obtain ⟨-, rfl⟩ := Prod.mk.inj (Option.some.inj scanned)
        refine ⟨l, chars, ?_⟩
        rw [List.length_cons, List.length_cons]
        omega
    · rw [closeFrom_step fun plain braces => closes ⟨plain, braces⟩]
      exact (leaves_bind fun next _ => shorter next).mono longer

theorem leaves_text_inside {mode : Mode} (inside : mode ≠ .plain) (nonempty : text ≠ []) :
    Leaves (text.length - 1 + n) (closeFrom mode (text ++ tail)) := by
  cases text with
  | nil => exact absurd rfl nonempty
  | cons c cs =>
    rw [List.cons_append, closeFrom_step fun plain => absurd plain inside]
    exact leaves_bind fun next _ =>
      leaves_text (fun ds suffix => cut ds (suffix.trans (List.suffix_cons c cs))) front later next

end

namespace Commented

def text : Commented → List Char
  | last text _ => text
  | more text _ _ _ _ _ => text

def tail : Commented → List Char
  | last _ _ => []
  | more _ _ _ comment _ rest =>
    openingBraces ++ (written comment ++ (closingBraces ++ rest.chars))

def outsideTail : Commented → List Char
  | last _ _ => []
  | more _ _ _ _ _ rest => rest.outside

variable (l : Commented)

theorem chars_eq : l.chars = l.text ++ l.tail := by
  cases l with
  | last text plain => exact (List.append_nil text).symm
  | more => rfl

theorem length_outside : l.outside.length = l.text.length + l.outsideTail.length := by
  cases l with
  | last => rfl
  | more => exact List.length_append

theorem exists_of_suffix {cs : List Char} (suffix : cs <:+ l.text) :
    ∃ l' : Commented, cs ++ l.tail = l'.chars ∧
      l'.outside.length ≤ cs.length + l.outsideTail.length := by
  cases l with
  | last text plain =>
    have plain' : ¬ openingBraces <:+: cs := fun inside => plain (inside.trans suffix.isInfix)
    exact ⟨.last cs plain', List.append_nil cs, Nat.le_refl _⟩
  | more text plain ends comment braces rest =>
    have plain' : ¬ openingBraces <:+: cs := fun inside => plain (inside.trans suffix.isInfix)
    have ends' : cs.getLast? ≠ some '\x7b' := by
      intro brace
      obtain ⟨before, rfl⟩ := suffix
      rw [List.getLast?_append, brace] at ends
      exact ends rfl
    exact ⟨.more cs plain' ends' comment braces rest, rfl, Nat.le_of_eq List.length_append⟩

theorem head?_tail : l.tail.head? ≠ some '\x7d' := by
  cases l with
  | last => exact nofun
  | more =>
    have brace : '\x7b' ≠ '\x7d' := by decide
    exact fun same => brace (Option.some.inj same)

theorem leaves_tail (mode : Mode) : Leaves l.outsideTail.length (closeFrom mode l.tail) := by
  induction l generalizing mode with
  | last text plain =>
    rw [tail, closeFrom]
    exact leaves_none _
  | more text plain ends comment braces rest ih =>
    have whole (mode : Mode) : Leaves rest.outside.length (closeFrom mode rest.chars) := by
      rw [chars_eq, length_outside]
      exact leaves_text (fun _ => rest.exists_of_suffix) rest.head?_tail ih mode
    rw [tail, closeFrom_openingBraces]
    refine leaves_bind fun opened _ => ?_
    rw [closeFrom_append (not_braces_written braces) (by rw [getLast?_written]; decide)]
    refine leaves_bind fun next reached => ?_
    by_cases closes : next = .plain
    · rw [closes, closeFrom_closingBraces]
      rintro body after ⟨⟩
      exact ⟨rest, rfl, Nat.le_refl _⟩
    · rw [closeFrom_closingBraces_of_ne closes (not_escaped_of_written reached)]
      exact (whole next).behind _

/-- A quoted piece that is open in front of a text takes the first character of it at least. -/
theorem leaves_inside {mode : Mode} (inside : mode ≠ .plain) (nonempty : l.text ≠ []) :
    Leaves (l.outside.length - 1) (closeFrom mode l.chars) := by
  have positive : 0 < l.text.length := List.length_pos_iff.mpr nonempty
  have fewer := leaves_text_inside (fun _ => l.exists_of_suffix) l.head?_tail l.leaves_tail inside
    nonempty
  rw [← chars_eq] at fewer
  refine fewer.mono ?_
  rw [length_outside]
  omega

theorem harmless_of_text {mode : Mode} (inside : mode ≠ .plain) (nonempty : l.text ≠ []) :
    l.harmless mode = false := by
  cases l with
  | last => exact decide_eq_false inside
  | more text =>
    have started : (mode = .plain || text.isEmpty) = false := by
      rw [Bool.or_eq_false_iff]
      exact ⟨decide_eq_false inside, List.isEmpty_eq_false_iff.mpr nonempty⟩
    rw [harmless, started, Bool.false_and]

end Commented

/-! ### Where an action with a comment ends -/

/-- How the scan ends of an action whose comment has the texts `outside` behind it, which are kept
if `harmless`. -/
inductive Ended (outside : List Char) (harmless : Bool) : Option (List Char × List Char) → Prop
  | never (harmful : harmless = false) : Ended outside harmless none
  | inTime {body : List Char} {l : Commented} (closes : ['*', '/'] <:+ body)
      (kept : l.outside = outside) (same : l.harmless .plain = harmless) :
    Ended outside harmless (some (body, l.chars))
  | late {body : List Char} {l : Commented} (lost : l.outside.length < outside.length)
      (harmful : harmless = false) : Ended outside harmless (some (body, l.chars))

theorem Ended.behind {outside : List Char} {harmless : Bool}
    {found : Option (List Char × List Char)} (h : Ended outside harmless found) (cs : List Char) :
    Ended outside harmless (behind cs found) := by
  cases h with
  | never harmful => exact .never harmful
  | inTime closes kept same => exact .inTime (List.suffix_append_of_suffix closes) kept same
  | late lost harmful => exact .late lost harmful

theorem Leaves.ended {outside : List Char} {found : Option (List Char × List Char)}
    (h : Leaves (outside.length - 1) found) (nonempty : outside ≠ []) :
    Ended outside false found := by
  have positive : 0 < outside.length := List.length_pos_iff.mpr nonempty
  cases found with
  | none => exact .never rfl
  | some scanned =>
    obtain ⟨body, after⟩ := scanned
    obtain ⟨l, rfl, few⟩ := h body after rfl
    exact .late (by omega) rfl

theorem ended_of_inside {comment : List Char} (braces : ¬ closingBraces <:+: comment)
    {rest : Commented} (inside : ∀ mode, mode ≠ .plain → mode ≠ .escaped →
      Ended rest.outside (rest.harmless mode) (closeFrom mode rest.chars)) (mode : Mode) :
    Ended rest.outside ((mode.after? (written comment)).any rest.harmless)
      (closeFrom mode (written comment ++ (closingBraces ++ rest.chars))) := by
  rw [closeFrom_append (not_braces_written braces) (by rw [getLast?_written]; decide)]
  cases reached : mode.after? (written comment) with
  | none => exact .never rfl
  | some next =>
    show Ended rest.outside (rest.harmless next)
      (behind (written comment) (closeFrom next (closingBraces ++ rest.chars)))
    by_cases closes : next = .plain
    · have mark : ['*', '/'] <:+ written comment ++ [] := by
        rw [List.append_nil]
        exact ⟨'/' :: '*' :: comment, rfl⟩
      rw [closes, closeFrom_closingBraces]
      exact .inTime mark rfl rfl
    · have settled := not_escaped_of_written reached
      rw [closeFrom_closingBraces_of_ne closes settled]
      exact ((inside next closes settled).behind _).behind _

/-- A piece that is open goes on into the next comment, unless a text stands before it. -/
theorem Commented.ended_inside (l : Commented) {mode : Mode} (inside : mode ≠ .plain)
    (settled : mode ≠ .escaped) : Ended l.outside (l.harmless mode) (closeFrom mode l.chars) := by
  induction l generalizing mode with
  | last text plain =>
    rw [harmless, decide_eq_false inside]
    cases text with
    | nil =>
      rw [chars, closeFrom]
      exact .never rfl
    | cons c cs =>
      have fewer := (last (c :: cs) plain).leaves_inside inside (List.cons_ne_nil c cs)
      exact fewer.ended (List.cons_ne_nil c cs)
  | more text plain ends comment braces rest ih =>
    cases text with
    | nil =>
      have same : (more [] plain ends comment braces rest).harmless mode =
          (mode.after? (written comment)).any rest.harmless := by
        rw [harmless, List.isEmpty_nil, Bool.or_true, Bool.true_and]
      rw [same, chars, List.nil_append, closeFrom_openingBraces, after?_openingBraces settled]
      exact (ended_of_inside braces (fun _ => ih) mode).behind openingBraces
    | cons c cs =>
      have nonempty : (more (c :: cs) plain ends comment braces rest).text ≠ [] :=
        List.cons_ne_nil c cs
      rw [harmless_of_text _ inside nonempty]
      exact (leaves_inside _ inside nonempty).ended (List.cons_ne_nil c _)

theorem ended_written {comment : List Char} (braces : ¬ closingBraces <:+: comment)
    (rest : Commented) (mode : Mode) :
    Ended rest.outside ((mode.after? (written comment)).any rest.harmless)
      (closeFrom mode (written comment ++ (closingBraces ++ rest.chars))) :=
  ended_of_inside braces (fun _ => rest.ended_inside) mode

theorem exists_of_append_eq {kept trail cs : List Char} (slash : '/' ∉ trail) (star : '*' ∉ trail)
    (whole : kept ++ trail = '/' :: '*' :: cs) : ∃ later, kept = '/' :: '*' :: later := by
  match kept with
  | [] => exact absurd (whole ▸ List.mem_cons_self : '/' ∈ [] ++ trail) slash
  | [c] =>
    have rest : trail = '*' :: cs := (List.cons.inj whole).2
    exact absurd (rest ▸ List.mem_cons_self) star
  | c :: d :: later =>
    obtain ⟨rfl, rest⟩ := List.cons.inj whole
    obtain ⟨rfl, -⟩ := List.cons.inj rest
    exact ⟨later, rfl⟩

theorem eq_of_dropBackMark (cs : List Char) :
    ∃ marks, (Body.dropBackMark cs).1 ++ marks = cs ∧ ∀ c ∈ marks, c = '-' := by
  unfold Body.dropBackMark
  split
  · next c rest shape =>
    have whole : (c :: rest).reverse ++ ['-'] = cs := by
      rw [← List.reverse_cons, ← shape, List.reverse_reverse]
    split
    · exact ⟨['-'], whole, by simp⟩
    · exact ⟨[], List.append_nil cs, nofun⟩
  · exact ⟨[], List.append_nil cs, nofun⟩

theorem ofChars_comment (cs : List Char) : ∃ later trimsAfter,
    Body.ofChars ('/' :: '*' :: cs) = ⟨false, '/' :: '*' :: later, trimsAfter⟩ := by
  have front : Body.dropFrontMark ('/' :: '*' :: cs) = (false, '/' :: '*' :: cs) := rfl
  obtain ⟨marks, marked, dashes⟩ := eq_of_dropBackMark ('/' :: '*' :: cs)
  obtain ⟨kept, unmarked⟩ := exists_of_append_eq (fun slash => by cases dashes _ slash)
    (fun star => by cases dashes _ star) marked
  obtain ⟨trail, trimmed, blank⟩ := trimEnd_parts ('/' :: '*' :: kept)
  obtain ⟨later, content⟩ := exists_of_append_eq (fun slash => by cases blank _ slash)
    (fun star => by cases blank _ star) trimmed.symm
  have started : trim ('/' :: '*' :: kept) = trimEnd ('/' :: '*' :: kept) := rfl
  refine ⟨later, (Body.dropBackMark ('/' :: '*' :: cs)).2, ?_⟩
  rw [Body.ofChars, front, unmarked, started, content]

theorem ofChars_of_solid {cs : List Char} (solid : Solid cs) :
    Body.ofChars cs = ⟨false, cs, false⟩ := by
  let bare : Margin := ⟨false, [], List.forall_mem_nil _, nofun⟩
  have around := Margin.ofChars_append bare bare solid
  rwa [show bare.front ++ cs ++ bare.back = cs from List.append_nil cs] at around

theorem pipeline?_comment (before after : Bool) (cs : List Char) :
    Body.pipeline? ⟨before, '/' :: '*' :: cs, after⟩ = .ok none ∨
      Body.pipeline? ⟨before, '/' :: '*' :: cs, after⟩ = .error .unclosedComment := by
  show (if Body.closesComment ('/' :: '*' :: cs) then _ else _) = _ ∨ (if _ then _ else _) = _
  split
  · exact .inl rfl
  · exact .inr rfl

theorem pipeline?_of_closed {cs : List Char} (closes : ['*', '/'] <:+ '/' :: '*' :: cs)
    (before after : Bool) : Body.pipeline? ⟨before, '/' :: '*' :: cs, after⟩ = .ok none := by
  show (if Body.closesComment ('/' :: '*' :: cs) then _ else _) = _
  rw [Body.closesComment, if_pos (List.isSuffixOf_iff_suffix.mpr closes)]

theorem exists_of_close? {cs body after : List Char}
    (h : close? ('/' :: '*' :: cs) = some (body, after)) : ∃ later, body = '/' :: '*' :: later := by
  have slash : Mode.plain.next? '/' = some .plain := by decide
  have star : Mode.plain.next? '*' = some .plain := by decide
  rw [close?, closeFrom_cons slash fun _ => not_braces_of_ne (by decide) _,
    closeFrom_cons star fun _ => not_braces_of_ne (by decide) _, behind_behind] at h
  obtain ⟨⟨later, after'⟩, -, moved⟩ := Option.map_eq_some_iff.mp h
  exact ⟨later, (Prod.mk.inj moved).1.symm⟩

/-! ### What is rendered -/

theorem length_trimmed_le (front back : Bool) (cs : List Char) :
    (trimmed front back cs).length ≤ cs.length := by
  obtain ⟨lead, trail, parts, -⟩ := (isTrimmed_trimmed front back cs).parts
  have sum := congrArg List.length parts
  rw [List.length_append, List.length_append] at sum
  omega

theorem read_ofList (cs : List Char) (name : String) : Template.read (String.ofList cs) name =
    (nodesOf name false (segmentsFrom 1 cs)).map fun nodes => ⟨name, nodes⟩ := by
  rw [Template.read, segments, String.toList_ofList]

def Renders (nodes : List Node) (out : List Char) : Prop :=
  ∀ name c, renderAll name c nodes = .ok (String.ofList out)

theorem renders_nil : Renders [] [] := fun _ _ => rfl

theorem Renders.behind_text {nodes : List Node} {out : List Char} (h : Renders nodes out)
    (cs : List Char) : Renders (textNode cs ++ nodes) (cs ++ out) := by
  intro name c
  rw [renderAll_append, renderAll_textNode, h, String.ofList_append]
  rfl

/-- What comes of a source that has the texts `outside` outside its comments: unless they are
`harmless` it is refused or rendered as a shorter text. -/
inductive Comes (outside : List Char) (harmless trims : Bool) :
    Except SyntaxFault (List Node) → Prop
  | refused (fault : SyntaxFault) (harmful : harmless = false) :
    Comes outside harmless trims (.error fault)
  | rendered {nodes : List Node} {out : List Char} (renders : Renders nodes out)
      (le : out.length ≤ outside.length) (lt : harmless = false → out.length < outside.length)
      (same : harmless = true → trims = false → out = outside) :
    Comes outside harmless trims (.ok nodes)

theorem Comes.behind_text {outside : List Char} {harmless : Bool}
    {result : Except SyntaxFault (List Node)} (h : Comes outside harmless false result)
    (text : List Char) (trims : Bool) :
    Comes (text ++ outside) harmless trims
      (result.map (textNode (trimmed trims false text) ++ ·)) := by
  have fewer := length_trimmed_le trims false text
  cases h with
  | refused fault harmful => exact .refused fault harmful
  | @rendered nodes out renders le lt same =>
    refine .rendered (renders.behind_text _) ?_ (fun harmful => ?_) fun harmless untrimmed => ?_
    · rw [List.length_append, List.length_append]
      omega
    · have := lt harmful
      rw [List.length_append, List.length_append]
      omega
    · rw [same harmless rfl, untrimmed]
      rfl

theorem Comes.behind_text_of_lt {kept outside : List Char} {harmless trims : Bool}
    {result : Except SyntaxFault (List Node)} (h : Comes kept harmless trims result)
    (lost : kept.length < outside.length) (text : List Char) (trims' : Bool) :
    Comes (text ++ outside) false trims'
      (result.map (textNode (trimmed trims' false text) ++ ·)) := by
  have fewer := length_trimmed_le trims' false text
  cases h with
  | refused fault => exact .refused fault rfl
  | @rendered nodes out renders le =>
    have shorter : (trimmed trims' false text ++ out).length < (text ++ outside).length := by
      rw [List.length_append, List.length_append]
      omega
    exact .rendered (renders.behind_text _) (Nat.le_of_lt shorter) (fun _ => shorter) nofun

theorem nodesOf_comment {name : String} {trims : Bool} {text body : List Char} {line : Nat}
    {content : List Char} {after : Bool} (marks : Body.ofChars body = ⟨false, content, after⟩)
    (comment : Body.pipeline? ⟨false, content, after⟩ = .ok none) (rest : List Segment) :
    nodesOf name trims (.text text :: .body body line :: rest) =
      (nodesOf name after rest).map (textNode (trimmed trims false text) ++ ·) := by
  rw [nodesOf, nodesOf, trimsBefore, marks, comment]
  cases nodesOf name after rest <;> rfl

theorem nodesOf_unclosedComment {name : String} {trims : Bool} {text body : List Char} {line : Nat}
    {content : List Char} {after : Bool} (marks : Body.ofChars body = ⟨false, content, after⟩)
    (refused : Body.pipeline? ⟨false, content, after⟩ = .error .unclosedComment)
    (rest : List Segment) :
    nodesOf name trims (.text text :: .body body line :: rest) =
      .error ⟨name, line, .unclosedComment⟩ := by
  rw [nodesOf, nodesOf, marks, refused]
  rfl

namespace Commented

theorem harmless_plain {text : List Char} {plain : ¬ openingBraces <:+: text}
    {ends : text.getLast? ≠ some '\x7b'} {comment : List Char}
    {braces : ¬ closingBraces <:+: comment} {rest : Commented} :
    (more text plain ends comment braces rest).harmless .plain =
      (Mode.plain.after? (written comment)).any rest.harmless := rfl

/-- What stands behind a comment is read as texts and comments of its own. -/
theorem comes_of_ended {outside text cs : List Char} {harmless trims : Bool} {line : Nat}
    {name : String} (ended : Ended outside harmless (close? ('/' :: '*' :: cs)))
    (behind : ∀ (l : Commented) (trims : Bool) (line : Nat), l.chars.length < cs.length + 2 →
      Comes l.outside (l.harmless .plain) trims (nodesOf name trims (segmentsFrom line l.chars))) :
    Comes (text ++ outside) harmless trims
      (nodesOf name trims (.text text :: opened line (close? ('/' :: '*' :: cs)))) := by
  generalize scanned : close? ('/' :: '*' :: cs) = found at ended
  cases ended with
  | never harmful => exact .refused _ harmful
  | @inTime body l closes kept same =>
    obtain ⟨later, rfl⟩ := exists_of_close? scanned
    have last : ('/' :: '*' :: later).getLast?.any isSolid = true := by
      obtain ⟨front, whole⟩ := closes
      rw [← whole, List.getLast?_append]
      rfl
    have comment := pipeline?_of_closed closes false false
    rw [opened, nodesOf_comment (ofChars_of_solid ⟨rfl, last⟩) comment, ← kept, ← same]
    exact (behind l _ _ (length_of_closeFrom scanned)).behind_text text trims
  | @late body l lost harmful =>
    obtain ⟨later, rfl⟩ := exists_of_close? scanned
    obtain ⟨content, after, marks⟩ := ofChars_comment later
    rw [opened]
    rcases pipeline?_comment false after content with comment | unclosed
    · rw [nodesOf_comment marks comment, harmful]
      exact (behind l _ _ (length_of_closeFrom scanned)).behind_text_of_lt lost text trims
    · rw [nodesOf_unclosedComment marks unclosed]
      exact .refused _ harmful

theorem comes (l : Commented) (name : String) (trims : Bool) (line : Nat) :
    Comes l.outside (l.harmless .plain) trims (nodesOf name trims (segmentsFrom line l.chars)) := by
  -- Not on the source itself: what follows an action that ends late begins inside a text of it,
  -- so it is no part of the source, only shorter.
  induction h : l.chars.length using Nat.strongRecOn generalizing l trims line with
  | ind n ih =>
  subst h
  cases l with
  | last text plain =>
    rw [chars, segmentsFrom_of_plain line plain]
    refine .rendered (renders_nil.behind_text (trimmed trims false text)) ?_ (fun harmful => ?_)
      fun _ same => ?_
    · rw [List.append_nil]
      exact length_trimmed_le trims false text
    · cases harmful
    · rw [same]
      exact List.append_nil text
  | more text plain ends comment braces rest =>
    rw [chars, segmentsFrom_open line plain ends, harmless_plain, outside]
    refine comes_of_ended (ended_written braces rest .plain) fun l trims line shorter => ?_
    refine ih l.chars.length ?_ l trims line rfl
    have shorter : l.chars.length < (written comment ++ (closingBraces ++ rest.chars)).length :=
      shorter
    rw [chars, List.length_append, List.length_append]
    omega

theorem harmless_of_closed {l : Commented}
    (closed : ∀ comment ∈ l.comments, Mode.plain.after? (written comment) = some .plain) :
    l.harmless .plain = true := by
  induction l with
  | last text plain => rfl
  | more text plain ends comment braces rest ih =>
    rw [comments, List.forall_mem_cons] at closed
    rw [harmless_plain, closed.1]
    exact ih closed.2

/-- A source with comments is rendered as the text outside the comments in every context exactly if
the comments are harmless, as they are if each closes the quoted pieces it opens. Otherwise the
source is refused or text is lost. -/
theorem render_outside (l : Commented) (name : String) :
    ((∃ t, Template.read (String.ofList l.chars) name = .ok t ∧
        ∀ c, t.render c = .ok (String.ofList l.outside)) ↔ l.harmless .plain = true) ∧
      (l.harmless .plain = false → ∀ t, Template.read (String.ofList l.chars) name = .ok t →
        ∃ out, out.length < l.outside.length ∧ ∀ c, t.render c = .ok (String.ofList out)) ∧
      ((∀ comment ∈ l.comments, Mode.plain.after? (written comment) = some .plain) →
        l.harmless .plain = true) := by
  have comes := l.comes name false 1
  rw [read_ofList]
  generalize nodesOf name false (segmentsFrom 1 l.chars) = result at comes
  have lossy : l.harmless .plain = false → ∀ t, result.map (fun nodes => ⟨name, nodes⟩) = .ok t →
      ∃ out, out.length < l.outside.length ∧
        ∀ c, Template.render t c = .ok (String.ofList out) := by
    intro harmful t reads
    cases comes with
    | refused fault => cases reads
    | @rendered nodes out renders le lt =>
      obtain rfl := Except.ok.inj reads
      exact ⟨out, lt harmful, renders name⟩
  refine ⟨?_, lossy, harmless_of_closed⟩
  · constructor
    · rintro ⟨t, reads, kept⟩
      by_contra harmful
      obtain ⟨out, less, loses⟩ := lossy (Bool.eq_false_iff.mpr harmful) t reads
      have kept := kept ⟨"", "", .standard, fun _ => ""⟩
      rw [loses, Except.ok.injEq, String.ofList_inj] at kept
      rw [kept] at less
      exact Nat.lt_irrefl _ less
    · intro harmless
      cases comes with
      | refused fault harmful =>
        rw [harmful] at harmless
        cases harmless
      | rendered renders le lt same =>
        refine ⟨_, rfl, fun c => ?_⟩
        rw [← same harmless rfl]
        exact renders name c

theorem outside_lost_of_lone_marks :
    (∃ l : Commented, l.chars = "a\x7b\x7b/*\"*/\x7d\x7db".toList ∧ l.outside = ['a', 'b'] ∧
      Template.read (String.ofList l.chars) = .error ⟨"template", 1, .unclosedAction⟩) ∧
    ∃ l : Commented, l.chars = "\x7b\x7b/*\"*/\x7d\x7db\x7b\x7b/*\"*/\x7d\x7dc".toList ∧
      l.outside = ['b', 'c'] ∧ ∃ t, Template.read (String.ofList l.chars) = .ok t ∧
        ∀ c, t.render c = .ok "c" := by
  constructor
  · let l : Commented :=
      .more ['a'] (by decide) (by decide) ['"'] (by decide) (.last ['b'] (by decide))
    refine ⟨l, rfl, rfl, ?_⟩
    rw [read_ofList, chars, segmentsFrom_open 1 (by decide) (by decide)]
    rfl
  · let l : Commented :=
      .more [] (by decide) (by decide) ['"'] (by decide)
        (.more ['b'] (by decide) (by decide) ['"'] (by decide) (.last ['c'] (by decide)))
    refine ⟨l, rfl, rfl, ⟨"template", [.text "c"]⟩, ?_, fun c => rfl⟩
    rw [read_ofList, chars, segmentsFrom_open 1 (by decide) (by decide)]
    show (nodesOf _ _ (.text [] :: .body _ _ :: segmentsFrom 1 ['c'])).map _ = _
    rw [segmentsFrom_of_plain 1 (by decide)]
    rfl

end Commented

end CollectionRun.Template
