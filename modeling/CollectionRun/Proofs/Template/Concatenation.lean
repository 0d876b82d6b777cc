import CollectionRun.Proofs.Except
import CollectionRun.Proofs.Template.Layout
import CollectionRun.Proofs.Template.Rendering

/-! A source that is read stands for itself: with another one behind it its actions open and
close where they did, and the other one is read as it is alone, on later lines (`nodesOf_below`).
Only the texts at the seam become one. -/

namespace CollectionRun.Template

theorem eq_of_closeFrom {mode : Mode} {cs body after : List Char}
    (h : closeFrom mode cs = some (body, after)) : cs = body ++ closingBraces ++ after := by
  fun_induction closeFrom mode cs generalizing body after with
  | case1 rest => cases h; rfl
  | case2 => cases h
  | case3 mode c rest _ ih =>
    obtain ⟨next, turns, h⟩ := Option.bind_eq_some_iff.mp h
    obtain ⟨⟨inner, behind⟩, closes, same⟩ := Option.bind_eq_some_iff.mp h
    cases same
    rw [ih next closes]
    rfl

theorem closeFrom_of_some {mode : Mode} {cs body after : List Char}
    (h : closeFrom mode cs = some (body, after)) (other : List Char) :
    closeFrom mode (body ++ closingBraces ++ other) = some (body, other) := by
  fun_induction closeFrom mode cs generalizing body after with
  | case1 rest =>
    cases h
    exact closeFrom_closingBraces other
  | case2 => cases h
  | case3 mode c rest unclosed ih =>
    obtain ⟨next, turns, h⟩ := Option.bind_eq_some_iff.mp h
    obtain ⟨⟨inner, behind⟩, closes, same⟩ := Option.bind_eq_some_iff.mp h
    cases same
    have open_ : mode = .plain → ¬ closingBraces <+: c :: (inner ++ closingBraces ++ other) := by
      rintro rfl ⟨later, braces⟩
      obtain ⟨rfl, tail⟩ := List.cons.inj braces
      have shape := eq_of_closeFrom closes
      cases inner with
      | nil => exact unclosed ('\x7d' :: after) rfl rfl shape
      | cons d inner => exact unclosed _ rfl rfl (by rw [(List.cons.inj tail).1]; exact shape)
    rw [List.cons_append, List.cons_append, closeFrom_cons turns open_, ih next closes]
    rfl

theorem closeFrom_append_of_some {mode : Mode} {cs body after : List Char}
    (h : closeFrom mode cs = some (body, after)) (t : List Char) :
    closeFrom mode (cs ++ t) = some (body, after ++ t) := by
  rw [eq_of_closeFrom h, List.append_assoc]
  exact closeFrom_of_some h (after ++ t)

theorem eq_of_open? {cs text rest : List Char} (h : open? cs = (text, some rest)) :
    cs = text ++ openingBraces ++ rest := by
  fun_induction open? cs generalizing text with
  | case1 => cases h
  | case2 => cases h; rfl
  | case3 c cs _ inner found same ih =>
    cases h
    rw [ih same]
    rfl

/-- The text before an action has no opening braces, not even with those of the action. -/
theorem plain_of_open? {cs text rest : List Char} (h : open? cs = (text, some rest)) :
    ¬ openingBraces <:+: text ∧ text.getLast? ≠ some '\x7b' := by
  fun_induction open? cs generalizing text with
  | case1 => cases h
  | case2 =>
    cases h
    exact ⟨by decide, by decide⟩
  | case3 c cs other inner found same ih =>
    cases h
    obtain ⟨plain, ends⟩ := ih same
    have shape := eq_of_open? same
    constructor
    · rw [List.infix_cons_iff]
      rintro (⟨later, braces⟩ | inside)
      · obtain ⟨rfl, tail⟩ := List.cons.inj braces
        cases inner with
        | nil => cases tail
        | cons d inner => exact other _ rfl (by rw [(List.cons.inj tail).1]; exact shape)
      · exact plain inside
    · rw [List.getLast?_cons]
      cases last : inner.getLast? with
      | none =>
        rintro ⟨⟩
        rw [List.getLast?_eq_none_iff.mp last] at shape
        exact other _ rfl shape
      | some d => rwa [last] at ends

theorem open?_append_of_some {cs text rest : List Char} (h : open? cs = (text, some rest))
    (t : List Char) : open? (cs ++ t) = (text, some (rest ++ t)) := by
  obtain ⟨plain, ends⟩ := plain_of_open? h
  rw [eq_of_open? h, List.append_assoc, List.append_assoc]
  exact open?_append plain ends (rest ++ t)

/-- Where the two sources meet, no opening braces arise. -/
def Meet (s t : List Char) : Prop := ¬ (s.getLast? = some '\x7b' ∧ t.head? = some '\x7b')

theorem Meet.behind {before s t : List Char} (h : Meet (before ++ s) t) : Meet s t := by
  rintro ⟨last, first⟩
  exact h ⟨by rw [List.getLast?_append, last]; rfl, first⟩

theorem open?_append_of_none {cs text : List Char} (h : open? cs = (text, none)) {t : List Char}
    (meet : Meet cs t) : text = cs ∧ open? (cs ++ t) = (cs ++ (open? t).1, (open? t).2) := by
  fun_induction open? cs generalizing text with
  | case1 =>
    cases h
    exact ⟨rfl, rfl⟩
  | case2 => cases h
  | case3 c cs other inner found same ih =>
    cases h
    have later : Meet cs t := (show Meet ([c] ++ cs) t from meet).behind
    have front : ¬ openingBraces <+: c :: (cs ++ t) := by
      rintro ⟨behind, braces⟩
      obtain ⟨rfl, tail⟩ := List.cons.inj braces
      cases cs with
      | nil =>
        rw [List.nil_append] at tail
        exact meet ⟨rfl, by rw [← tail]; rfl⟩
      | cons d cs => exact other cs rfl (by rw [← (List.cons.inj tail).1])
    obtain ⟨whole, opens⟩ := ih same later
    exact ⟨by rw [whole], by rw [List.cons_append, open?_cons front, opens]; rfl⟩

theorem nodesOf_text_eq_ok_iff {name : String} {after : Bool} {cs : List Char} {segs : List Segment}
    {nodes : List Node} : nodesOf name after (.text cs :: segs) = .ok nodes ↔
      ∃ later, nodesOf name false segs = .ok later ∧
        textNode (trimmed after (trimsBefore segs) cs) ++ later = nodes := by
  rw [nodesOf, bind_eq_ok_iff]
  simp only [pure, Except.pure, Except.ok.injEq]

theorem nodesOf_body_eq_ok_iff {name : String} {after : Bool} {cs : List Char} {line : Nat}
    {segs : List Segment} {nodes : List Node} :
    nodesOf name after (.body cs line :: segs) = .ok nodes ↔
      ∃ pipeline?, (Body.ofChars cs).pipeline? = .ok pipeline? ∧
        ∃ later, nodesOf name (Body.ofChars cs).trimsAfter segs = .ok later ∧
          (pipeline?.toList.map fun p => .action ⟨p, line⟩) ++ later = nodes := by
  rw [nodesOf]
  simp only [bind_eq_ok_iff, mapError_eq_ok_iff]
  refine exists_congr fun pipeline? => and_congr_right fun _ => exists_congr fun later =>
    and_congr_right fun _ => ?_
  cases pipeline? with
  | none => exact Except.ok.injEq later nodes ▸ Iff.rfl
  | some pipeline => exact Except.ok.injEq (_ :: later) nodes ▸ Iff.rfl

def Fault.below {π : Type} (n : Nat) (f : Fault π) : Fault π := { f with line := n + f.line }

def Segment.below (n : Nat) : Segment → Segment
  | .text cs => .text cs
  | .body cs line => .body cs (n + line)
  | .unclosed line => .unclosed (n + line)

def Node.below (n : Nat) : Node → Node
  | .text s => .text s
  | .action a => .action { a with line := n + a.line }

theorem segmentsFrom_below (n line : Nat) (cs : List Char) :
    segmentsFrom (n + line) cs = (segmentsFrom line cs).map (Segment.below n) := by
  fun_induction segmentsFrom line cs with
  | case1 line cs text found => rw [segmentsFrom_of_none _ found]; rfl
  | case2 line cs text rest found _ never =>
    rw [segmentsFrom_of_some _ found, never, Nat.add_assoc]
    rfl
  | case3 line cs text rest found _ body after closes ih =>
    rw [segmentsFrom_of_some _ found, closes, Nat.add_assoc, opened, Nat.add_assoc, ih]
    rfl

theorem trimsBefore_below (n : Nat) (segs : List Segment) :
    trimsBefore (segs.map (Segment.below n)) = trimsBefore segs := by
  cases segs with
  | nil => rfl
  | cons seg segs => cases seg <;> rfl

theorem textNode_below (n : Nat) (cs : List Char) :
    (textNode cs).map (Node.below n) = textNode cs := by
  unfold textNode
  split <;> rfl

theorem nodesOf_below {name : String} {after : Bool} {segs : List Segment} {nodes : List Node}
    (h : nodesOf name after segs = .ok nodes) (n : Nat) :
    nodesOf name after (segs.map (Segment.below n)) = .ok (nodes.map (Node.below n)) := by
  induction segs generalizing after nodes with
  | nil =>
    cases h
    rfl
  | cons seg segs ih =>
    cases seg with
    | unclosed line => cases h
    | text cs =>
      obtain ⟨later, read, rfl⟩ := nodesOf_text_eq_ok_iff.mp h
      refine nodesOf_text_eq_ok_iff.mpr ⟨_, ih read, ?_⟩
      rw [trimsBefore_below, List.map_append, textNode_below]
    | body cs line =>
      obtain ⟨pipeline?, read, later, rest, rfl⟩ := nodesOf_body_eq_ok_iff.mp h
      refine nodesOf_body_eq_ok_iff.mpr ⟨pipeline?, read, _, ih rest, ?_⟩
      rw [List.map_append, List.map_map]
      rfl

theorem renderAll_below (name : String) (c : Context) (n : Nat) (nodes : List Node) :
    renderAll name c (nodes.map (Node.below n)) =
      (renderAll name c nodes).mapError (.map (Fault.below n)) := by
  induction nodes with
  | nil => rfl
  | cons node nodes ih =>
    rw [List.map_cons, renderAll_cons, renderAll_cons, ih]
    have first : (node.below n).render name c =
        (node.render name c).mapError (.map (Fault.below n)) := by
      cases node with
      | text s => rfl
      | action a =>
        simp only [Node.below, Node.render]
        cases a.pipeline.print c with
        | ok s => rfl
        | error problem => cases problem <;> rfl
    rw [first]
    cases node.render name c with
    | error f => rfl
    | ok s => cases renderAll name c nodes <;> rfl

/-! ### The seam -/

def bodies (segs : List Segment) : List Body :=
  segs.filterMap fun
    | .body cs _ => some (Body.ofChars cs)
    | _ => none

theorem trimsBefore_eq_false {segs : List Segment}
    (h : (bodies segs).head?.any Body.trimsBefore = false) : trimsBefore segs = false := by
  cases segs with
  | nil => rfl
  | cons seg segs =>
    cases seg with
    | body cs line => exact h
    | _ => rfl

theorem exists_seam {s : List Char} (found : open? s = (s, none)) {t : List Char} (meet : Meet s t)
    (line : Nat) : ∃ text segs, segmentsFrom (line + s.count '\n') t = .text text :: segs ∧
      segmentsFrom line (s ++ t) = .text (s ++ text) :: segs := by
  obtain ⟨-, opens⟩ := open?_append_of_none found meet
  cases other : open? t with
  | mk text rest? =>
    rw [other] at opens
    cases rest? with
    | none => exact ⟨text, [], segmentsFrom_of_none _ other, segmentsFrom_of_none _ opens⟩
    | some rest =>
      refine ⟨text, _, segmentsFrom_of_some _ other, ?_⟩
      rw [segmentsFrom_of_some _ opens, List.count_append, Nat.add_assoc]

theorem nodesOf_append_of_text {name : String} {line : Nat} {s t : List Char} {later : List Node}
    (found : open? s = (s, none)) (meet : Meet s t)
    (second : nodesOf name false (segmentsFrom (line + s.count '\n') t) = .ok later)
    (left : (bodies (segmentsFrom (line + s.count '\n') t)).head?.any Body.trimsBefore = false) :
    ∃ all, nodesOf name false (segmentsFrom line (s ++ t)) = .ok all ∧
      ∀ c, renderAll name c all = followedBy (.ok (String.ofList s)) (renderAll name c later) := by
  obtain ⟨text, segs, other, whole⟩ := exists_seam found meet line
  rw [other] at second left
  have untrimmed : trimsBefore segs = false := trimsBefore_eq_false left
  obtain ⟨rest, read, rfl⟩ := nodesOf_text_eq_ok_iff.mp second
  rw [whole, untrimmed]
  refine ⟨textNode (s ++ text) ++ rest, ?_, ?_⟩
  · exact nodesOf_text_eq_ok_iff.mpr ⟨rest, read, by rw [untrimmed]; rfl⟩
  · intro c
    have merged : renderAll name c (textNode (s ++ text)) =
        followedBy (.ok (String.ofList s)) (renderAll name c (textNode text)) := by
      rw [renderAll_textNode, renderAll_textNode, String.ofList_append]
      rfl
    rw [renderAll_append, merged, followedBy_assoc, ← renderAll_append]
    rfl

def trimsLast (after : Bool) (segs : List Segment) : Bool :=
  (bodies segs).getLast?.elim after Body.trimsAfter

theorem trimsLast_body (after : Bool) (text body : List Char) (line : Nat) (segs : List Segment) :
    trimsLast after (.text text :: .body body line :: segs) =
      trimsLast (Body.ofChars body).trimsAfter segs := by
  have last : (bodies (.text text :: .body body line :: segs)).getLast? =
      some ((bodies segs).getLast?.getD (Body.ofChars body)) := List.getLast?_cons
  rw [trimsLast, last, trimsLast]
  cases (bodies segs).getLast? <;> rfl

/-- Behind a source that is read, the other one is read; only texts become one. -/
theorem nodesOf_append {name : String} {after : Bool} {line : Nat} {s t : List Char}
    {nodes later : List Node} (meet : Meet s t)
    (first : nodesOf name after (segmentsFrom line s) = .ok nodes)
    (second : nodesOf name false (segmentsFrom (line + s.count '\n') t) = .ok later)
    (right : trimsLast after (segmentsFrom line s) = false)
    (left : (bodies (segmentsFrom (line + s.count '\n') t)).head?.any Body.trimsBefore = false) :
    ∃ all, nodesOf name after (segmentsFrom line (s ++ t)) = .ok all ∧
      ∀ c, renderAll name c all = followedBy (renderAll name c nodes) (renderAll name c later) := by
  -- Action by action of the first source: behind each of them stands a shorter first source, which
  -- begins on a later line and with the trim mark of that action.
  fun_induction segmentsFrom line s generalizing after nodes with
  | case1 line s text found =>
    obtain ⟨rfl, -⟩ := open?_append_of_none found meet
    obtain rfl : after = false := right
    obtain ⟨_, ⟨⟩, rfl⟩ := nodesOf_text_eq_ok_iff.mp first
    obtain ⟨all, read, renders⟩ := nodesOf_append_of_text found meet second left
    refine ⟨all, read, ?_⟩
    intro c
    rw [renders, List.append_nil, ← renderAll_textNode name c]
    rfl
  | case2 line s text rest found _ =>
    obtain ⟨_, unclosed, -⟩ := nodesOf_text_eq_ok_iff.mp first
    cases unclosed
  | case3 line s text rest found here body behind closes =>
    rename_i ih
    have split : s = text ++ openingBraces ++ (body ++ closingBraces ++ behind) := by
      rw [eq_of_open? found, eq_of_closeFrom closes]
    have lines : line + s.count '\n' = here + body.count '\n' + behind.count '\n' := by
      rw [split]
      simp [openingBraces, closingBraces, List.count_append, here]
      omega
    have meets : Meet behind t := by
      rw [split, ← List.append_assoc, ← List.append_assoc] at meet
      exact meet.behind
    rw [lines] at second left
    rw [trimsLast_body] at right
    obtain ⟨inner, action, rfl⟩ := nodesOf_text_eq_ok_iff.mp first
    obtain ⟨pipeline?, ofBody, nodes, ofBehind, rfl⟩ := nodesOf_body_eq_ok_iff.mp action
    obtain ⟨all, ofAll, renders⟩ := ih meets ofBehind second right left
    have whole : nodesOf name after (segmentsFrom line (s ++ t)) =
        .ok (textNode (trimmed after (Body.ofChars body).trimsBefore text) ++
          ((pipeline?.toList.map fun p => .action ⟨p, here⟩) ++ all)) := by
      rw [segmentsFrom_of_some _ (open?_append_of_some found t), close?,
        closeFrom_append_of_some closes, opened]
      exact nodesOf_text_eq_ok_iff.mpr
        ⟨_, nodesOf_body_eq_ok_iff.mpr ⟨pipeline?, ofBody, all, ofAll, rfl⟩, rfl⟩
    refine ⟨_, whole, ?_⟩
    intro c
    rw [renderAll_append, renderAll_append, renders, renderAll_append, renderAll_append,
      followedBy_assoc, followedBy_assoc]
    rfl

theorem bodies_below (n : Nat) (segs : List Segment) :
    bodies (segs.map (Segment.below n)) = bodies segs := by
  rw [bodies, List.filterMap_map, bodies]
  congr 1
  funext seg
  cases seg <;> rfl

/-- Two sources that are read are read as one, unless opening braces or trim marks reach over the
seam. It is rendered as the first and then the second; a fault of the second is as many lines
further down as the first has line feeds. -/
theorem render_append {s t name : String} {a b : Template} (first : Template.read s name = .ok a)
    (second : Template.read t name = .ok b) (meet : Meet s.toList t.toList)
    (right : (bodies (segments s)).getLast?.any Body.trimsAfter = false)
    (left : (bodies (segments t)).head?.any Body.trimsBefore = false) :
    ∃ both, Template.read (s ++ t) name = .ok both ∧ ∀ c, both.render c =
      match a.render c, b.render c with
      | .error f, _ => .error f
      | .ok x, .ok y => .ok (x ++ y)
      | .ok _, .error f => .error (f.map (Fault.below (s.toList.count '\n'))) := by
  obtain ⟨nodes, ofS, rfl⟩ := map_eq_ok_iff.mp first
  obtain ⟨later, ofT, rfl⟩ := map_eq_ok_iff.mp second
  have moved : segmentsFrom (1 + s.toList.count '\n') t.toList =
      (segments t).map (Segment.below (s.toList.count '\n')) := by
    rw [Nat.add_comm, segmentsFrom_below, segments]
  have read := nodesOf_below ofT (s.toList.count '\n')
  rw [← moved] at read
  rw [← bodies_below (s.toList.count '\n'), ← moved] at left
  have right : trimsLast false (segments s) = false := by
    rw [trimsLast]
    cases last : (bodies (segments s)).getLast? <;> rw [last] at right <;> exact right
  obtain ⟨all, reads, renders⟩ := nodesOf_append meet ofS read right left
  refine ⟨⟨name, all⟩, ?_, fun c => ?_⟩
  · rw [Template.read, segments, String.toList_append, reads]
    rfl
  · show renderAll name c all = _
    rw [renders, renderAll_below]
    simp only [Template.render]
    cases renderAll name c nodes with
    | error f => rfl
    | ok x => cases renderAll name c later <;> rfl

theorem render_append_of_unprintable :
    let s := "a\x7b\x7b\"x\"\x7d\x7d\n\x7b"
    let t := "b\x7b\x7b.Config -\x7d\x7d"
    (∃ a, Template.read s = .ok a ∧ ∀ c, a.render c = .ok "ax\n\x7b") ∧
      (∃ b, Template.read t = .ok b ∧
        ∀ c, b.render c = .error (.fault ⟨"template", 1, .unprintable "StepConfig"⟩)) ∧
      ∃ both, Template.read (s ++ t) = .ok both ∧
        ∀ c, both.render c = .error (.fault ⟨"template", 2, .unprintable "StepConfig"⟩) := by
  intro s t
  let bare : Margin := ⟨false, [], List.forall_mem_nil _, nofun⟩
  let marked : Margin := ⟨true, [' '], List.all_eq_true.mp rfl, fun _ => List.cons_ne_nil _ _⟩
  have text : Spelled (Pipeline.items ⟨⟨.literal "x" "\"x\"", []⟩, []⟩) "\"x\"".toList :=
    .last (.quoted (by decide))
  have name : IsName "Config".toList := ⟨'C', _, rfl, rfl, List.all_eq_true.mp rfl⟩
  have config : Spelled (Pipeline.items ⟨⟨.field ["Config"], []⟩, []⟩) ".Config".toList :=
    .last (.field (by simpa using name))
  let first : Layout := .more ['a'] (by decide) (by decide) ⟨bare, .pipeline _ _ text, bare⟩
    (.last ['\n', '\x7b'] (by decide))
  let second : Layout := .more ['b'] (by decide) (by decide) ⟨bare, .pipeline _ _ config, marked⟩
    (.last [] (by decide))
  have ofS : Template.read s = .ok ⟨"template", first.nodes [] false⟩ := first.reads "template"
  have ofT : Template.read t = .ok ⟨"template", second.nodes [] false⟩ := second.reads "template"
  have segmentsS : segments s = first.segments 1 := first.segments_ofList
  have segmentsT : segments t = second.segments 1 := second.segments_ofList
  have right : (bodies (segments s)).getLast?.any Body.trimsAfter = false := by
    rw [segmentsS]
    rfl
  have left : (bodies (segments t)).head?.any Body.trimsBefore = false := by
    rw [segmentsT]
    rfl
  have meet : Meet s.toList t.toList := by simp [Meet, s, t]
  obtain ⟨both, read, renders⟩ := render_append ofS ofT meet right left
  refine ⟨⟨_, ofS, fun c => rfl⟩, ⟨_, ofT, fun c => rfl⟩, both, read, fun c => ?_⟩
  have lines : s.toList.count '\n' = 1 := by decide
  rw [renders, lines]
  rfl

end CollectionRun.Template
