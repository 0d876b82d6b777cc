import CollectionRun.Proofs.Template.Typing

/-! Values are compared by their face, the type and the text they are printed as: a whole
configuration has no text, so whatever its settings are its face is the same. -/

namespace CollectionRun.Template

def Pipeline.operands (p : Pipeline) : List Operand := p.commands.flatMap Command.operands

def Node.operands : Node → List Operand
  | .text _ => []
  | .action a => a.pipeline.operands

def operands (t : Template) : List Operand := t.nodes.flatMap Node.operands

/-- Two contexts agree on all that the operands name. -/
structure Agree (operands : List Operand) (c c' : Context) : Prop where
  displayName : ∀ names, .field ("CollectionDisplayName" :: names) ∈ operands →
    c.displayName = c'.displayName
  collection : ∀ names, .field ("BrunoCollection" :: names) ∈ operands →
    c.collection = c'.collection
  setting : ∀ name names s, .field ("Config" :: name :: names) ∈ operands →
    Setting.spelled? name = some s → c.config.get s = c'.config.get s
  environment : .function .getenv ∈ operands → ∀ name, c.getenv name = c'.getenv name

namespace Agree

variable {operands : List Operand} {c c' : Context}

theorem mono (agree : Agree operands c c') {fewer : List Operand} (subset : fewer ⊆ operands) :
    Agree fewer c c' where
  displayName names member := agree.displayName names (subset member)
  collection names member := agree.collection names (subset member)
  setting name names s member := agree.setting name names s (subset member)
  environment member := agree.environment (subset member)

end Agree

def Value.face (v : Value) : ValueType × Except (Obstacle RenderProblem) String := (v.type, v.print)

theorem face_text_eq_iff {s : String} {v : Value} :
    v.face = (Value.text s).face ↔ v = .text s := by
  constructor
  · intro same
    obtain ⟨types, prints⟩ := Prod.mk.inj same
    cases v with
    | text t => rw [Except.ok.inj prints]
    | _ => cases types
  · rintro rfl
    rfl

variable {c c' : Context}

theorem face_follow_config {names : List String}
    (agree : ∀ name later s, names = name :: later → Setting.spelled? name = some s →
      c.config.get s = c'.config.get s) :
    ((Value.config c.config).follow names).map Value.face =
      ((Value.config c'.config).follow names).map Value.face := by
  cases names with
  | nil => rfl
  | cons name later =>
    rw [Value.follow, Value.follow, Value.field?, Value.field?]
    cases spelled : Setting.spelled? name with
    | none => rfl
    | some s => rw [Option.map_some, Option.map_some, agree name later s rfl spelled]

theorem face_operand {o : Operand} (agree : Agree [o] c c') :
    (o.eval c).map Value.face = (o.eval c').map Value.face := by
  cases o with
  | literal value spelling => rfl
  | function f => cases f; rfl
  | field names =>
    cases names with
    | nil => rfl
    | cons name names =>
      rw [Operand.eval, Operand.eval, Value.follow, Value.follow, Value.field?, Value.field?]
      by_cases display : name = "CollectionDisplayName"
      · subst display
        rw [if_pos rfl, if_pos rfl, agree.displayName names List.mem_cons_self]
      · rw [if_neg display, if_neg display]
        by_cases collection : name = "BrunoCollection"
        · subst collection
          rw [if_pos rfl, if_pos rfl, agree.collection names List.mem_cons_self]
        · rw [if_neg collection, if_neg collection]
          by_cases config : name = "Config"
          · subst config
            rw [if_pos rfl, if_pos rfl]
            refine face_follow_config ?_
            rintro name later s rfl spelled
            exact agree.setting name later s List.mem_cons_self spelled
          · rw [if_neg config, if_neg config]
            rfl

theorem call_of_length_ne {f : Function} {arguments : List Value} (h : arguments.length ≠ 1)
    (c : Context) : f.call c arguments = .error (.argumentCount f arguments.length) := by
  cases f
  match arguments with
  | [] => rfl
  | [_] => exact absurd rfl h
  | _ :: _ :: _ => simp [Function.call]

theorem face_call (f : Function) {arguments arguments' : List Value}
    (agree : ∀ name, c.getenv name = c'.getenv name)
    (same : arguments.map Value.face = arguments'.map Value.face) :
    (f.call c arguments).map Value.face = (f.call c' arguments').map Value.face := by
  have lengths : arguments.length = arguments'.length := by
    simpa using congrArg List.length same
  by_cases one : arguments.length = 1
  · obtain ⟨v, rfl⟩ := List.length_eq_one_iff.mp one
    obtain ⟨w, rfl⟩ := List.length_eq_one_iff.mp (lengths.symm.trans one)
    have faces : v.face = w.face := (List.cons.inj same).1
    have types : v.type = w.type := (Prod.mk.inj faces).1
    cases f
    cases v with
    | text name => rw [face_text_eq_iff.mp faces.symm, Function.call, Function.call, agree name]
    | _ => cases w <;> first | rfl | cases types
  · rw [call_of_length_ne one, call_of_length_ne (lengths ▸ one), lengths]

theorem face_evalAll {operands : List Operand} (agree : Agree operands c c') :
    (evalAll c operands).map (List.map Value.face) =
      (evalAll c' operands).map (List.map Value.face) := by
  induction operands with
  | nil => rfl
  | cons o rest ih =>
    have first : Agree [o] c c' := agree.mono (by simp)
    have later : Agree rest c c' := agree.mono (List.subset_cons_self o rest)
    rw [evalAll, evalAll]
    refine map_bind_eq_map_bind (face_operand first) fun v w faces => ?_
    refine map_bind_eq_map_bind (ih later) fun vs ws all => ?_
    exact congrArg Except.ok (List.cons_eq_cons.mpr ⟨faces, all⟩)

theorem face_command {command : Command} (agree : Agree command.operands c c')
    {piped? piped?' : Option Value} (same : piped?.map Value.face = piped?'.map Value.face) :
    (command.eval c piped?).map Value.face = (command.eval c' piped?').map Value.face := by
  obtain ⟨head, arguments⟩ := command
  have first : Agree [head] c c' := agree.mono (by simp [Command.operands])
  have behind : Agree arguments c c' := agree.mono (List.subset_cons_self head arguments)
  have piped : piped?.isNone = piped?'.isNone := by
    rw [← Option.isNone_map, same, Option.isNone_map]
  cases head with
  | function f =>
    rw [Command.eval, Command.eval]
    refine map_bind_eq_map_bind (face_evalAll behind) fun vs ws all => ?_
    refine face_call f (first.environment (by cases f; exact List.mem_cons_self)) ?_
    rw [List.map_append, List.map_append, all, ← Option.toList_map, ← Option.toList_map, same]
  | literal | field =>
    simp only [Command.eval, piped]
    split
    · exact face_operand first
    · rfl

theorem face_evalFrom {commands : List Command}
    (agree : Agree (commands.flatMap Command.operands) c c') {v w : Value}
    (same : v.face = w.face) :
    (evalFrom c v commands).map Value.face = (evalFrom c' w commands).map Value.face := by
  induction commands generalizing v w with
  | nil => exact congrArg Except.ok same
  | cons command rest ih =>
    rw [List.flatMap_cons] at agree
    have first : Agree command.operands c c' := agree.mono (List.subset_append_left _ _)
    have later := agree.mono (List.subset_append_right _ _)
    rw [evalFrom, evalFrom]
    refine map_bind_eq_map_bind (face_command first (congrArg some same)) fun v w faces => ?_
    exact ih later faces

theorem face_pipeline {p : Pipeline} (agree : Agree p.operands c c') :
    (p.eval c).map Value.face = (p.eval c').map Value.face := by
  rw [Pipeline.operands, Pipeline.commands, List.flatMap_cons] at agree
  have first : Agree p.first.operands c c' := agree.mono (List.subset_append_left _ _)
  have later := agree.mono (List.subset_append_right _ _)
  rw [Pipeline.eval, Pipeline.eval]
  refine map_bind_eq_map_bind (face_command first rfl) fun v w faces => ?_
  exact face_evalFrom later faces

theorem render_node (name : String) {n : Node} (agree : Agree n.operands c c') :
    n.render name c = n.render name c' := by
  cases n with
  | text s => rfl
  | action a =>
    have values : ((a.pipeline.eval c).mapError Obstacle.fault).map Value.face =
        ((a.pipeline.eval c').mapError Obstacle.fault).map Value.face := by
      rw [map_mapError, map_mapError, face_pipeline agree]
    have printed : a.pipeline.print c = a.pipeline.print c' :=
      bind_eq_bind values fun v w faces => (Prod.mk.inj faces).2
    rw [Node.render, Node.render, printed]

theorem renderAll_eq_of_agree (name : String) {nodes : List Node}
    (agree : Agree (nodes.flatMap Node.operands) c c') :
    renderAll name c nodes = renderAll name c' nodes := by
  induction nodes with
  | nil => rfl
  | cons n rest ih =>
    rw [List.flatMap_cons] at agree
    have first : Agree n.operands c c' := agree.mono (List.subset_append_left _ _)
    have later := agree.mono (List.subset_append_right _ _)
    rw [renderAll, renderAll, render_node name first, ih later]

/-- A template is rendered alike, text or fault, in contexts that agree on what its operands name;
without a function among them the environment does not matter. -/
theorem render_eq_of_agree (t : Template) :
    (∀ c c', Agree t.operands c c' → t.render c = t.render c') ∧
      (.function .getenv ∉ t.operands →
        ∀ (c : Context) (getenv : String → Option String), t.render { c with getenv } = t.render c) := by
  have alike : ∀ c c', Agree t.operands c c' → t.render c = t.render c' :=
    fun c c' agree => renderAll_eq_of_agree t.name agree
  refine ⟨alike, fun unread c getenv => alike _ _ ?_⟩
  exact ⟨fun _ _ => rfl, fun _ _ => rfl, fun _ _ _ _ _ => rfl, fun read => absurd read unread⟩

theorem render_eq_of_agree_of_named_setting :
    let t : Template := ⟨"t",
      [.action ⟨⟨⟨.function .getenv, [.field ["Config", "BrunoEnvironment"]]⟩, []⟩, 1⟩]⟩
    let quoted : Template := ⟨"t", [.action ⟨⟨⟨.literal "getenv" "\"getenv\"", []⟩, []⟩, 1⟩]⟩
    let c : Context := ⟨"a", "b", .standard, fun name => some (name ++ "?")⟩
    let c' : Context := ⟨"c", "d", Config.standard.set .delay (3 : Int), fun name => some (name ++ "?")⟩
    (Agree t.operands c c' ∧ t.render c = t.render c') ∧
      .function .getenv ∉ quoted.operands ∧
        quoted.render { c with getenv := fun _ => none } = quoted.render c := by
  intro t quoted c c'
  have named : t.operands = [.function .getenv, .field ["Config", "BrunoEnvironment"]] := rfl
  have agree : Agree t.operands c c' := by
    rw [named]
    refine ⟨fun names member => ?_, fun names member => ?_, fun name names s member spelled => ?_,
      fun _ _ => rfl⟩
    · simp at member
    · simp at member
    · obtain ⟨rfl, rfl⟩ : name = "BrunoEnvironment" ∧ names = [] := by simpa using member
      have found : Setting.spelled? "BrunoEnvironment" = some .environment := by decide
      obtain rfl := Option.some.inj (found.symm.trans spelled)
      rfl
  have unread : .function .getenv ∉ quoted.operands := by decide
  exact ⟨⟨agree, (render_eq_of_agree t).1 c c' agree⟩, unread,
    (render_eq_of_agree quoted).2 unread c fun _ => none⟩

end CollectionRun.Template
