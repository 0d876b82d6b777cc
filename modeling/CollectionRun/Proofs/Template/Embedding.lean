import CollectionRun.Proofs.Json.StringLiteral
import CollectionRun.Proofs.Template.Layout
import CollectionRun.Proofs.Template.Rendering

namespace CollectionRun.Template

open Json.StringLiteral (Denotes FourDigits Spells)

def embed (before spelling after : String) : String :=
  before ++ "\x7b\x7b" ++ spelling ++ "\x7d\x7d" ++ after

variable {before after : String} (plainBefore : ¬ openingBraces <:+: before.toList)
  (ends : before.toList.getLast? ≠ some '\x7b') (plainAfter : ¬ openingBraces <:+: after.toList)

include plainBefore ends plainAfter

theorem read_embed {p : Pipeline} {spelling : String} (spelled : Spelled p.items spelling.toList)
    (name : String) : Template.read (embed before spelling after) name = .ok ⟨name,
      textNode before.toList ++
        .action ⟨p, 1 + before.toList.count '\n'⟩ :: textNode after.toList⟩ := by
  let bare : Margin := ⟨false, [], List.forall_mem_nil _, nofun⟩
  let l : Layout := .more before.toList plainBefore ends ⟨bare, .pipeline p _ spelled, bare⟩
    (.last after.toList plainAfter)
  have shape : String.ofList l.chars = embed before spelling after := by
    apply String.toList_inj.mp
    simp [l, bare, Layout.chars, WrittenAction.chars, WrittenAction.body, Content.chars, embed,
      openingBraces, closingBraces, Margin.front, Margin.back]
  have read := l.reads name
  rw [shape] at read
  rw [read]
  simp [l, bare, Layout.nodes, WrittenAction.nodes, Content.pipeline?, trimmed]

omit plainBefore ends plainAfter in
theorem render_around (name : String) (a : Action) (c : Context) :
    Template.render ⟨name, textNode before.toList ++ .action a :: textNode after.toList⟩ c =
      ((Node.action a).render name c).map (before ++ · ++ after) := by
  rw [Template.render, renderAll_append, renderAll_cons, renderAll_textNode, renderAll_textNode,
    String.ofList_toList, String.ofList_toList]
  cases (Node.action a).render name c with
  | error fault => rfl
  | ok value => exact congrArg Except.ok String.append_assoc.symm

theorem renders_embed {p : Pipeline} {spelling : String}
    (spelled : Spelled p.items spelling.toList) (name : String) :
    ∃ t, Template.read (embed before spelling after) name = .ok t ∧
      ∀ c value, p.eval c = .ok (.text value) → t.render c = .ok (before ++ value ++ after) := by
  refine ⟨_, read_embed plainBefore ends plainAfter spelled name, fun c value given => ?_⟩
  rw [render_around, Node.render, Pipeline.print, given]
  rfl

theorem render_embed {value spelling : String}
    (written : (Operand.literal value spelling).WellFormed) (name : String) :
    ∃ t, Template.read (embed before spelling after) name = .ok t ∧
      ∀ c, t.render c = .ok (before ++ value ++ after) := by
  let p : Pipeline := ⟨⟨.literal value spelling, []⟩, []⟩
  have spelled : Spelled p.items spelling.toList := .last written
  obtain ⟨t, read, rendered⟩ := renders_embed plainBefore ends plainAfter spelled name
  exact ⟨t, read, fun c => rendered c value rfl⟩

/-- Every text can be written into a source as a literal that denotes it, or between back quotes
if it holds none. In every context it is rendered as it is. -/
theorem render_literal (value name : String) :
    (∀ literal, Denotes literal value →
        ∃ t, Template.read (embed before literal after) name = .ok t ∧
          ∀ c, t.render c = .ok (before ++ value ++ after)) ∧
      ('\x60' ∉ value.toList →
        ∃ t, Template.read (embed before ("\x60" ++ value ++ "\x60") after) name = .ok t ∧
          ∀ c, t.render c = .ok (before ++ value ++ after)) := by
  constructor
  · intro literal denotes
    have decoded := Json.StringLiteral.decode?_of_denotes denotes
    exact render_embed plainBefore ends plainAfter (.quoted decoded) name
  · intro plain
    have spelling : "\x60" ++ value ++ "\x60" = String.ofList ('\x60' :: value.toList ++ ['\x60']) := by
      apply String.toList_inj.mp
      simp
    rw [spelling]
    exact render_embed plainBefore ends plainAfter (.raw plain) name

omit plainBefore ends plainAfter

theorem render_literal_of_marks :
    let value := "\x7d\x7d\"\n😀-"
    let literal := "\"\x7d\\u007D\\\"\\n\\uD83D\\ude00-\""
    (∃ t, Template.read (embed "a\x7bb" literal "\x7d\x7d\x7b") = .ok t ∧
        ∀ c, t.render c = .ok ("a\x7bb" ++ value ++ "\x7d\x7d\x7b")) ∧
      ∃ t, Template.read (embed "a\x7bb" ("\x60" ++ value ++ "\x60") "\x7d\x7d\x7b") = .ok t ∧
        ∀ c, t.render c = .ok ("a\x7bb" ++ value ++ "\x7d\x7d\x7b") := by
  intro value literal
  have brace : FourDigits ['0', '0', '7', 'D'] '\x7d'.toNat :=
    .mk (k := 0) (l := 0) (m := 7) (n := 13) (by decide) (by decide) (by decide) (by decide)
  have high : FourDigits ['D', '8', '3', 'D'] 0xD83D :=
    .mk (k := 13) (l := 8) (m := 3) (n := 13) (by decide) (by decide) (by decide) (by decide)
  have low : FourDigits ['d', 'e', '0', '0'] 0xDE00 :=
    .mk (k := 13) (l := 14) (m := 0) (n := 0) (by decide) (by decide) (by decide) (by decide)
  have dash : Spells ['-', '"'] ['-'] := .plain (by decide) (by decide) (by decide) .close
  have face := Spells.halves (c := '😀') high low (by decide) (by decide) (by decide) dash
  have feed := Spells.letter (l := 'n') (c := '\n') (by decide) face
  have mark := Spells.letter (l := '"') (c := '"') (by decide) feed
  have escaped := Spells.number brace mark
  have plain := Spells.plain (c := '\x7d') (by decide) (by decide) (by decide) escaped
  have denotes : Denotes "\"\x7d\\u007D\\\"\\n\\uD83D\\ude00-\"" "\x7d\x7d\"\n😀-" :=
    ⟨_, rfl, plain⟩
  have plainAround : ¬ openingBraces <:+: "a\x7bb".toList ∧
      ¬ openingBraces <:+: "\x7d\x7d\x7b".toList := by decide
  have ends : "a\x7bb".toList.getLast? ≠ some '\x7b' := by decide
  have both := render_literal plainAround.1 ends plainAround.2 value Template.standardName
  exact ⟨both.1 literal denotes, both.2 (by decide)⟩

end CollectionRun.Template
