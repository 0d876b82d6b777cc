import CollectionRun.Proofs.Template.Concatenation

namespace CollectionRun.Template

def Segment.fault? (name : String) : Segment → Option SyntaxFault
  | .text _ => none
  | .body cs line =>
    match (Body.ofChars cs).pipeline? with
    | .ok _ => none
    | .error problem => some ⟨name, line, problem⟩
  | .unclosed line => some ⟨name, line, .unclosedAction⟩

theorem fault?_body_eq_some_iff {name : String} {cs : List Char} {line : Nat}
    {fault : SyntaxFault} :
    (Segment.body cs line).fault? name = some fault ↔
      ∃ problem, (Body.ofChars cs).pipeline? = .error problem ∧ ⟨name, line, problem⟩ = fault := by
  rw [Segment.fault?]
  cases (Body.ofChars cs).pipeline? with
  | ok pipeline? => exact iff_of_false nofun nofun
  | error problem =>
    constructor
    · intro same
      exact ⟨problem, rfl, Option.some.inj same⟩
    · rintro ⟨_, ⟨⟩, rfl⟩
      rfl

theorem nodesOf_text_eq_error_iff {name : String} {after : Bool} {cs : List Char}
    {segs : List Segment} {fault : SyntaxFault} :
    nodesOf name after (.text cs :: segs) = .error fault ↔
      nodesOf name false segs = .error fault := by
  rw [nodesOf, bind_eq_error_iff]
  constructor
  · rintro (later | ⟨_, _, impossible⟩)
    · exact later
    · cases impossible
  · exact .inl

theorem nodesOf_body_eq_error_iff {name : String} {after : Bool} {cs : List Char} {line : Nat}
    {segs : List Segment} {fault : SyntaxFault} :
    nodesOf name after (.body cs line :: segs) = .error fault ↔
      (Segment.body cs line).fault? name = some fault ∨
        (Segment.body cs line).fault? name = none ∧
          nodesOf name (Body.ofChars cs).trimsAfter segs = .error fault := by
  rw [nodesOf, Segment.fault?]
  cases (Body.ofChars cs).pipeline? with
  | error problem =>
    constructor
    · rintro ⟨⟩
      exact .inl rfl
    · rintro (⟨⟨⟩⟩ | ⟨⟨⟩, _⟩)
      rfl
  | ok pipeline? =>
    cases later : nodesOf name (Body.ofChars cs).trimsAfter segs with
    | error other =>
      constructor
      · rintro ⟨⟩
        exact .inr ⟨rfl, rfl⟩
      · rintro (⟨⟨⟩⟩ | ⟨_, ⟨⟩⟩)
        rfl
    | ok nodes =>
      refine iff_of_false (fun fails => ?_) (by rintro (⟨⟨⟩⟩ | ⟨_, ⟨⟩⟩))
      cases pipeline? <;> cases fails

theorem nodesOf_eq_error_iff {name : String} {after : Bool} {segs : List Segment}
    {fault : SyntaxFault} :
    nodesOf name after segs = .error fault ↔
      segs.findSome? (Segment.fault? name) = some fault := by
  induction segs generalizing after with
  | nil => exact iff_of_false nofun nofun
  | cons seg segs ih =>
    rw [List.findSome?_cons]
    cases seg with
    | text cs =>
      rw [nodesOf_text_eq_error_iff, ih]
      rfl
    | unclosed line =>
      constructor
      · rintro ⟨⟩
        rfl
      · rintro ⟨⟩
        rfl
    | body cs line =>
      rw [nodesOf_body_eq_error_iff, ih]
      cases (Segment.body cs line).fault? name with
      | none => simp
      | some other => simp

theorem exists_nodesOf_iff {name : String} {after : Bool} {segs : List Segment} :
    (∃ nodes, nodesOf name after segs = .ok nodes) ↔
      ∀ seg ∈ segs, seg.fault? name = none := by
  rw [← List.findSome?_eq_none_iff]
  cases result : nodesOf name after segs with
  | error fault =>
    rw [nodesOf_eq_error_iff.mp result]
    exact iff_of_false nofun nofun
  | ok nodes =>
    refine iff_of_true ⟨nodes, rfl⟩ ?_
    cases found : segs.findSome? (Segment.fault? name) with
    | none => rfl
    | some fault =>
      rw [nodesOf_eq_error_iff.mpr found] at result
      cases result

theorem segmentsFrom_of_open? (line : Nat) {cs text rest : List Char}
    (found : open? cs = (text, some rest)) (other : List Char) :
    segmentsFrom line (text ++ openingBraces ++ other) =
      .text text :: opened (line + text.count '\n') (close? other) := by
  obtain ⟨plain, ends⟩ := plain_of_open? found
  rw [List.append_assoc, segmentsFrom_open line plain ends]

theorem segmentsFrom_of_close? (line : Nat) {cs text rest body behind : List Char}
    (found : open? cs = (text, some rest)) (closes : close? rest = some (body, behind))
    (other : List Char) :
    segmentsFrom line (text ++ openingBraces ++ (body ++ closingBraces ++ other)) =
      .text text :: .body body (line + text.count '\n') ::
        segmentsFrom (line + text.count '\n' + body.count '\n') other := by
  have closesThere : close? (body ++ closingBraces ++ other) = some (body, other) :=
    closeFrom_of_some closes other
  rw [segmentsFrom_of_open? line found, closesThere, opened]

/-- The segments before an action are those of the characters before its braces, and other
characters behind the braces leave them as they are. -/
theorem exists_of_segmentsFrom {line : Nat} {cs : List Char} {earlier later : List Segment}
    {seg : Segment} (split : segmentsFrom line cs = earlier ++ seg :: later)
    (action : ∀ text, seg ≠ .text text) :
    ∃ before rest, cs = before ++ openingBraces ++ rest ∧ segmentsFrom line before = earlier ∧
      ∀ other, segmentsFrom line (before ++ openingBraces ++ other) =
        earlier ++ opened (line + before.count '\n') (close? other) := by
  -- Action by action: it is the first one, or it stands behind the closing braces of that one.
  fun_induction segmentsFrom line cs generalizing earlier with
  | case1 line cs text found =>
    obtain ⟨-, same⟩ | ⟨_, -, impossible⟩ := List.cons_eq_append_iff.mp split
    · exact absurd (List.cons.inj same).1 (action text)
    · cases (List.append_eq_nil_iff.mp impossible.symm).2
  | case2 line cs text rest found here =>
    obtain ⟨-, same⟩ | ⟨_, rfl, next⟩ := List.cons_eq_append_iff.mp split
    · exact absurd (List.cons.inj same).1 (action text)
    · obtain ⟨rfl, -⟩ | ⟨_, -, impossible⟩ := List.cons_eq_append_iff.mp next
      · exact ⟨text, rest, eq_of_open? found, segmentsFrom_of_plain line (plain_of_open? found).1,
          segmentsFrom_of_open? line found⟩
      · cases (List.append_eq_nil_iff.mp impossible.symm).2
  | case3 line cs text rest found here body behind closes =>
    rename_i ih
    obtain ⟨-, same⟩ | ⟨_, rfl, next⟩ := List.cons_eq_append_iff.mp split
    · exact absurd (List.cons.inj same).1 (action text)
    · obtain ⟨rfl, -⟩ | ⟨_, rfl, deeper⟩ := List.cons_eq_append_iff.mp next
      · exact ⟨text, rest, eq_of_open? found, segmentsFrom_of_plain line (plain_of_open? found).1,
          segmentsFrom_of_open? line found⟩
      · obtain ⟨before, rest', shape, segs, agrees⟩ := ih deeper
        have through := segmentsFrom_of_close? line found closes
        refine ⟨text ++ openingBraces ++ (body ++ closingBraces ++ before), rest', ?_, ?_, ?_⟩
        · rw [eq_of_open? found, eq_of_closeFrom closes, shape]
          simp only [List.append_assoc]
        · rw [through, segs]
        · intro other
          have lines : line + (text ++ openingBraces ++ (body ++ closingBraces ++ before)).count '\n' =
              here + body.count '\n' + before.count '\n' := by
            simp [openingBraces, closingBraces, List.count_append, here]
            omega
          have whole := through (before ++ openingBraces ++ other)
          rw [agrees] at whole
          simp only [List.append_assoc] at whole lines ⊢
          rw [whole, lines]
          rfl

/-- The fault of a source lies with the action whose braces open behind `before`. What stands
before the braces is read on its own, and the message begins with their line. Either the action is
never closed, or its body is the fault of every source that goes as far as its closing braces. -/
structure FaultAt (source name : String) (fault : SyntaxFault) (before rest : List Char) :
    Prop where
  place : source.toList = before ++ openingBraces ++ rest
  sound : ∃ t, Template.read (String.ofList before) name = .ok t
  line : fault.line = 1 + before.count '\n'
  message : fault.message = s!"template: {name}:{fault.line}: " ++ fault.problem.message
  decided : close? rest = none ∧ fault.problem = .unclosedAction ∨
    ∃ body after, close? rest = some (body, after) ∧ rest = body ++ closingBraces ++ after ∧
      ∀ other : String, before ++ openingBraces ++ body ++ closingBraces <+: other.toList →
        Template.read other name = .error fault

/-- Every fault lies with one action of the source. -/
theorem read_error_located {source name : String} {fault : SyntaxFault}
    (h : Template.read source name = .error fault) :
    ∃ before rest, FaultAt source name fault before rest := by
  have found := nodesOf_eq_error_iff.mp (map_eq_error_iff.mp h)
  obtain ⟨earlier, seg, later, split, faulty, fits⟩ := List.findSome?_eq_some_iff.mp found
  have action : ∀ text, seg ≠ .text text := by
    rintro text rfl
    cases faulty
  obtain ⟨before, rest, place, segs, agrees⟩ := exists_of_segmentsFrom split action
  have here : seg :: later = opened (1 + before.count '\n') (close? rest) := by
    rw [segments, place, agrees] at split
    exact (List.append_cancel_left split).symm
  have sound : ∃ t, Template.read (String.ofList before) name = .ok t := by
    obtain ⟨nodes, read⟩ := exists_nodesOf_iff.mpr fits
    refine ⟨⟨name, nodes⟩, map_eq_ok_iff.mpr ⟨nodes, ?_, rfl⟩⟩
    rw [segments, String.toList_ofList, segs]
    exact read
  cases closes : close? rest with
  | none =>
    rw [closes, opened] at here
    obtain ⟨rfl, -⟩ := List.cons.inj here
    cases faulty
    exact ⟨before, rest, place, sound, rfl, rfl, .inl ⟨closes, rfl⟩⟩
  | some found =>
    obtain ⟨body, after⟩ := found
    rw [closes, opened] at here
    obtain ⟨rfl, -⟩ := List.cons.inj here
    obtain ⟨problem, -, rfl⟩ := fault?_body_eq_some_iff.mp faulty
    refine ⟨before, rest, place, sound, rfl, rfl,
      .inr ⟨body, after, closes, eq_of_closeFrom closes, ?_⟩⟩
    rintro other ⟨tail, goes⟩
    have closesThere : close? (body ++ closingBraces ++ tail) = some (body, tail) :=
      closeFrom_of_some closes tail
    have there : segments other = earlier ++ .body body (1 + before.count '\n') ::
        segmentsFrom (1 + before.count '\n' + body.count '\n') tail := by
      rw [segments, ← goes, List.append_assoc, List.append_assoc, ← List.append_assoc body, agrees,
        closesThere, opened]
    refine map_eq_error_iff.mpr (nodesOf_eq_error_iff.mpr ?_)
    rw [there]
    exact List.findSome?_eq_some_iff.mpr ⟨_, _, _, rfl, faulty, fits⟩

theorem read_error_located_of_unknown_function :
    let source := "a\x7b\x7b/* if */ -\x7d\x7d\n\x7b\x7b .X \x7d\x7d\x7b\x7b\nif\x7d\x7db"
    let fault : SyntaxFault := ⟨"t", 2, .unknownFunction "if"⟩
    Template.read source "t" = .error fault ∧ ∃ before rest, FaultAt source "t" fault before rest := by
  intro source fault
  have cut : segments source = [.text ['a'], .body "/* if */ -".toList 1, .text ['\n'],
      .body " .X ".toList 2, .text [], .body "\nif".toList 2, .text ['b']] := by
    decide +kernel
  have refused : Template.read source "t" = .error fault := by
    rw [Template.read, cut]
    with_unfolding_all rfl
  exact ⟨refused, read_error_located refused⟩

end CollectionRun.Template
