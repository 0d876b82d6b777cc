import CollectionRun.Template.Render

namespace CollectionRun.Template

/-- One rendering and another one behind it; the first fault counts. -/
def followedBy (before later : Except (Obstacle RenderFault) String) :
    Except (Obstacle RenderFault) String := do
  return (← before) ++ (← later)

theorem followedBy_assoc (x y z : Except (Obstacle RenderFault) String) :
    followedBy (followedBy x y) z = followedBy x (followedBy y z) := by
  cases x with
  | error f => rfl
  | ok x =>
    cases y with
    | error f => rfl
    | ok y =>
      cases z with
      | error f => rfl
      | ok z => exact congrArg Except.ok String.append_assoc

theorem renderAll_cons (name : String) (c : Context) (node : Node) (nodes : List Node) :
    renderAll name c (node :: nodes) = followedBy (node.render name c) (renderAll name c nodes) :=
  rfl

theorem renderAll_append (name : String) (c : Context) (before later : List Node) :
    renderAll name c (before ++ later) =
      followedBy (renderAll name c before) (renderAll name c later) := by
  induction before with
  | nil =>
    show renderAll name c later = followedBy (.ok "") (renderAll name c later)
    cases renderAll name c later with
    | error f => rfl
    | ok s => exact congrArg Except.ok (String.empty_append).symm
  | cons node before ih =>
    rw [List.cons_append, renderAll_cons, renderAll_cons, ih, followedBy_assoc]

theorem renderAll_textNode (name : String) (c : Context) (cs : List Char) :
    renderAll name c (textNode cs) = .ok (String.ofList cs) := by
  unfold textNode
  split
  · next empty =>
    rw [List.isEmpty_iff.mp empty]
    rfl
  · exact congrArg Except.ok String.append_empty

end CollectionRun.Template
