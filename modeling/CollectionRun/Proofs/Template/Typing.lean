import CollectionRun.Proofs.Config.Validation
import CollectionRun.Template.Render

/-!
Every value that a template computes has a type that the template alone decides. `Template.check`
works it out without a context, and rendering fails exactly as the check does (`render_static`),
in all contexts but those in which a count that is printed has too many digits.
-/

namespace CollectionRun.Template

inductive ValueType where
  | text
  | integer
  | flag
  | words
  | config
  | context
  deriving DecidableEq, Repr

namespace ValueType

def name : ValueType → String
  | text => "str"
  | integer => "int"
  | flag => "bool"
  | words => "list"
  | config => "StepConfig"
  | context => "TemplateContext"

def ofKind : Kind → ValueType
  | .text | .sandbox => text
  | .flag => flag
  | .count => integer
  | .words => words

def field? : ValueType → String → Option ValueType
  | context, name =>
    if name = "CollectionDisplayName" ∨ name = "BrunoCollection" then some text
    else if name = "Config" then some config
    else none
  | config, name => (Setting.spelled? name).map fun s => ofKind s.kind
  | _, _ => none

def follow (t : ValueType) : List String → Except RenderProblem ValueType
  | [] => .ok t
  | name :: names =>
    match t.field? name with
    | some next => next.follow names
    | none => .error (.noField name t.name)

def checkPrint (t : ValueType) : Except RenderProblem Unit :=
  if t = config ∨ t = context then .error (.unprintable t.name) else .ok ()

end ValueType

/-! ### Checking without a context -/

def Function.typeOf (f : Function) (arguments : List ValueType) : Except RenderProblem ValueType :=
  match f, arguments with
  | .getenv, [t] => if t = .text then .ok .text else .error (.notText t.name)
  | f, ts => .error (.argumentCount f ts.length)

def Operand.typeOf : Operand → Except RenderProblem ValueType
  | .literal _ _ => .ok .text
  | .field names => ValueType.context.follow names
  | .function f => f.typeOf []

def typesOf : List Operand → Except RenderProblem (List ValueType)
  | [] => .ok []
  | o :: rest => do
    let t ← o.typeOf
    let ts ← typesOf rest
    return t :: ts

def Command.typeOf (piped? : Option ValueType) (command : Command) :
    Except RenderProblem ValueType :=
  match command.head with
  | .function f => do f.typeOf ((← typesOf command.arguments) ++ piped?.toList)
  | head =>
    if command.arguments.isEmpty && piped?.isNone then head.typeOf
    else .error (.argumentForValue head.text)

def typeFrom (t : ValueType) : List Command → Except RenderProblem ValueType
  | [] => .ok t
  | command :: rest => do typeFrom (← command.typeOf (some t)) rest

def Pipeline.typeOf (p : Pipeline) : Except RenderProblem ValueType := do
  typeFrom (← p.first.typeOf none) p.later

def Node.check (name : String) : Node → Except RenderFault Unit
  | .text _ => .ok ()
  | .action a =>
    ((do (← a.pipeline.typeOf).checkPrint) : Except RenderProblem Unit).mapError (⟨name, a.line, ·⟩)

def checkAll (name : String) : List Node → Except RenderFault Unit
  | [] => .ok ()
  | n :: rest => do
    n.check name
    checkAll name rest

def check (t : Template) : Except RenderFault Unit := checkAll t.name t.nodes

def Operand.setting? : Operand → Option Setting
  | .field [object, name] => if object = "Config" then Setting.spelled? name else none
  | _ => none

def Pipeline.setting? (p : Pipeline) : Option Setting :=
  if p.first.arguments.isEmpty && p.later.isEmpty then p.first.head.setting? else none

def Node.setting? : Node → Option Setting
  | .text _ => none
  | .action a => a.pipeline.setting?

/-- The settings that nodes print up to the first that fails its check. -/
def printedOf (name : String) : List Node → List Setting
  | [] => []
  | n :: rest => n.setting?.toList ++ match n.check name with
    | .ok _ => printedOf name rest
    | .error _ => []

def printed (t : Template) : List Setting := printedOf t.name t.nodes

theorem ValueType.eq_nil_of_follow_ofKind {k : Kind} {names : List String} {t : ValueType}
    (h : (ofKind k).follow names = .ok t) : names = [] := by
  cases names with
  | nil => rfl
  | cons name names => cases k <;> cases h

theorem setting_of_integer_field {names : List String}
    (h : ValueType.context.follow names = .ok .integer) : ∃ s, s ∈ (Operand.field names).setting? := by
  cases names with
  | nil => cases h
  | cons object names =>
    rw [ValueType.follow, ValueType.field?] at h
    by_cases text : object = "CollectionDisplayName" ∨ object = "BrunoCollection"
    · rw [if_pos text] at h
      obtain rfl := ValueType.eq_nil_of_follow_ofKind (k := .text) h
      cases h
    · rw [if_neg text] at h
      by_cases config : object = "Config"
      · rw [if_pos config] at h
        cases names with
        | nil => cases h
        | cons name names =>
          cases spelled : Setting.spelled? name with
          | none =>
            simp only [ValueType.follow, ValueType.field?, spelled, Option.map_none] at h
            cases h
          | some s =>
            simp only [ValueType.follow, ValueType.field?, spelled, Option.map_some] at h
            obtain rfl := ValueType.eq_nil_of_follow_ofKind h
            exact ⟨s, by rw [Operand.setting?, if_pos config, spelled]; rfl⟩
      · rw [if_neg config] at h
        cases h

theorem setting_of_integer_operand {o : Operand} (h : o.typeOf = .ok .integer) :
    ∃ s, s ∈ o.setting? := by
  cases o with
  | literal value spelling => cases h
  | function f => cases f; cases h
  | field names => exact setting_of_integer_field h

theorem Function.eq_text_of_typeOf {f : Function} {ts : List ValueType} {t : ValueType}
    (h : f.typeOf ts = .ok t) : t = .text := by
  unfold typeOf at h
  split at h
  · split at h
    · exact (Except.ok.inj h).symm
    · cases h
  · cases h

theorem setting_of_integer_command {command : Command} {piped? : Option ValueType}
    (h : command.typeOf piped? = .ok .integer) :
    command.arguments.isEmpty = true ∧ piped? = none ∧ ∃ s, s ∈ command.head.setting? := by
  obtain ⟨head, arguments⟩ := command
  cases head with
  | function f =>
    obtain ⟨ts, -, result⟩ := bind_eq_ok_iff.mp h
    cases Function.eq_text_of_typeOf result
  | literal | field =>
    simp only [Command.typeOf] at h
    split at h
    next alone =>
      obtain ⟨empty, none⟩ := Bool.and_eq_true_iff.mp alone
      exact ⟨empty, Option.isNone_iff_eq_none.mp none, setting_of_integer_operand h⟩
    next => cases h

theorem eq_nil_of_typeFrom {t : ValueType} {commands : List Command}
    (h : typeFrom t commands = .ok .integer) : commands = [] := by
  induction commands generalizing t with
  | nil => rfl
  | cons command rest ih =>
    obtain ⟨u, first, behind⟩ := bind_eq_ok_iff.mp h
    obtain rfl := ih behind
    obtain rfl := Except.ok.inj behind
    cases (setting_of_integer_command first).2.1

theorem setting_of_integer {p : Pipeline} (h : p.typeOf = .ok .integer) : ∃ s, s ∈ p.setting? := by
  obtain ⟨t, first, behind⟩ := bind_eq_ok_iff.mp h
  have alone := eq_nil_of_typeFrom behind
  rw [alone] at behind
  obtain rfl := Except.ok.inj behind
  obtain ⟨bare, -, s, named⟩ := setting_of_integer_command first
  exact ⟨s, by rw [Pipeline.setting?, bare, alone]; exact named⟩

/-! ### Values have the types found -/

namespace Value

def type : Value → ValueType
  | text _ => .text
  | integer _ => .integer
  | flag _ => .flag
  | words _ => .words
  | config _ => .config
  | context _ => .context

variable (v : Value)

theorem name_type : v.type.name = v.typeName := by cases v <;> rfl

theorem type_ofKind (k : Kind) (x : k.Carrier) : (ofKind k x).type = .ofKind k := by
  cases k <;> rfl

theorem map_type_field? (name : String) : (v.field? name).map type = v.type.field? name := by
  cases v with
  | context c =>
    simp only [field?, type, ValueType.field?]
    by_cases display : name = "CollectionDisplayName"
    · simp [display, type]
    · by_cases collection : name = "BrunoCollection"
      · simp [collection, type]
      · by_cases config : name = "Config" <;> simp [display, collection, config, type]
  | config c =>
    simp only [field?, type, ValueType.field?, Option.map_map]
    congr 1
    funext s
    exact type_ofKind s.kind (c.get s)
  | _ => rfl

theorem map_type_follow (names : List String) : (v.follow names).map type = v.type.follow names := by
  induction names generalizing v with
  | nil => rfl
  | cons name names ih =>
    have next := map_type_field? v name
    rw [follow, ValueType.follow, ← next, name_type]
    cases v.field? name with
    | some w => exact ih w
    | none => rfl

def Overlong : Value → Prop
  | integer n => Text.digitLimit < Text.digitCount n
  | _ => False

variable {v}

theorem print_of_overlong (h : v.Overlong) : v.print = .error .overlong := by
  cases v with
  | integer n => rw [print, Text.decimal?_eq_none_iff.mpr h]
  | _ => exact h.elim

theorem outcome_print (h : ¬ v.Overlong) :
    v.print.map (fun _ => ()) = v.type.checkPrint.mapError .fault := by
  cases v with
  | integer n =>
    obtain ⟨digits, short⟩ := Option.ne_none_iff_exists'.mp (mt Text.decimal?_eq_none_iff.mp h)
    rw [print, short]
    rfl
  | _ => rfl

theorem type_of_overlong (h : v.Overlong) : v.type = .integer := by
  cases v with
  | integer n => rfl
  | _ => exact h.elim

theorem overlong_ofKind {k : Kind} {x : k.Carrier} : (ofKind k x).Overlong ↔ k.Overlong x := by
  cases k <;> rfl

end Value

variable (c : Context)

theorem map_type_call (f : Function) (arguments : List Value) :
    (f.call c arguments).map Value.type = f.typeOf (arguments.map Value.type) := by
  cases f
  match arguments with
  | [] => rfl
  | [v] => cases v <;> rfl
  | _ :: _ :: _ => simp [Function.call, Function.typeOf, Except.map]

theorem map_type_operand (o : Operand) : (o.eval c).map Value.type = o.typeOf := by
  cases o with
  | literal value spelling => rfl
  | field names => exact Value.map_type_follow (.context c) names
  | function f => exact map_type_call c f []

theorem map_type_evalAll (operands : List Operand) :
    (evalAll c operands).map (List.map Value.type) = typesOf operands := by
  induction operands with
  | nil => rfl
  | cons o rest ih =>
    rw [evalAll, typesOf, ← map_type_operand c o, ← ih]
    exact map_bind fun v => map_bind fun vs => rfl

theorem map_type_command (piped? : Option Value) (command : Command) :
    (command.eval c piped?).map Value.type = command.typeOf (piped?.map Value.type) := by
  obtain ⟨head, arguments⟩ := command
  cases head with
  | function f =>
    rw [Command.eval, Command.typeOf, ← map_type_evalAll c arguments]
    refine map_bind fun vs => ?_
    rw [map_type_call, List.map_append]
    cases piped? <;> rfl
  | literal | field =>
    simp only [Command.eval, Command.typeOf, Option.isNone_map]
    split
    · exact map_type_operand c _
    · rfl

theorem map_type_evalFrom (v : Value) (commands : List Command) :
    (evalFrom c v commands).map Value.type = typeFrom v.type commands := by
  induction commands generalizing v with
  | nil => rfl
  | cons command rest ih =>
    have first : (command.eval c (some v)).map Value.type = command.typeOf (some v.type) :=
      map_type_command c (some v) command
    rw [evalFrom, typeFrom, ← first]
    exact map_bind ih

theorem map_type_pipeline (p : Pipeline) : (p.eval c).map Value.type = p.typeOf := by
  have first : (p.first.eval c none).map Value.type = p.first.typeOf none :=
    map_type_command c none p.first
  rw [Pipeline.eval, Pipeline.typeOf, ← first]
  exact map_bind fun v => map_type_evalFrom c v p.later

variable {c} {v : Value} {s : Setting}

theorem eval_of_setting_operand {o : Operand} (named : s ∈ o.setting?) :
    o.eval c = .ok (.ofKind s.kind (c.config.get s)) := by
  unfold Operand.setting? at named
  split at named
  next object name =>
    split at named
    next config =>
      have spelled : Setting.spelled? name = some s := named
      have found : (Value.context c).field? object = some (.config c.config) := by
        rw [config]
        rfl
      rw [Operand.eval, Value.follow, found]
      simp only [Value.follow, Value.field?, spelled, Option.map_some]
    next => cases named
  next => cases named

theorem eval_bare (c : Context) (o : Operand) : (⟨o, []⟩ : Command).eval c none = o.eval c := by
  cases o with
  | function f => rfl
  | literal | field => rfl

theorem eval_of_setting {p : Pipeline} (named : s ∈ p.setting?) :
    p.eval c = .ok (.ofKind s.kind (c.config.get s)) := by
  unfold Pipeline.setting? at named
  split at named
  next alone =>
    obtain ⟨⟨head, arguments⟩, later⟩ := p
    obtain ⟨bare, last⟩ := Bool.and_eq_true_iff.mp alone
    obtain rfl : arguments = [] := List.isEmpty_iff.mp bare
    obtain rfl : later = [] := List.isEmpty_iff.mp last
    rw [Pipeline.eval, eval_bare, eval_of_setting_operand named]
    rfl
  next => cases named

theorem setting_of_overlong {p : Pipeline} (given : p.eval c = .ok v) (long : v.Overlong) :
    ∃ s ∈ p.setting?, c.config.Overlong s := by
  have type : p.typeOf = .ok .integer := by
    rw [← map_type_pipeline c, given, ← Value.type_of_overlong long]
    rfl
  obtain ⟨s, named⟩ := setting_of_integer type
  obtain rfl := Except.ok.inj ((eval_of_setting named).symm.trans given)
  exact ⟨s, named, Value.overlong_ofKind.mp long⟩

theorem outcome_print_pipeline {p : Pipeline} (short : ∀ s ∈ p.setting?, ¬ c.config.Overlong s) :
    (p.print c).map (fun _ => ()) = (p.typeOf >>= ValueType.checkPrint).mapError .fault := by
  rw [← map_type_pipeline c, Pipeline.print]
  cases given : p.eval c with
  | error problem => rfl
  | ok v =>
    refine Value.outcome_print fun long => ?_
    obtain ⟨s, named, exceeds⟩ := setting_of_overlong given long
    exact short s named exceeds

theorem render_node_of_overlong (name : String) {n : Node} (named : s ∈ n.setting?)
    (long : c.config.Overlong s) : n.render name c = .error .overlong := by
  cases n with
  | text x => cases named
  | action a =>
    have printed : a.pipeline.print c = .error .overlong := by
      rw [Pipeline.print, eval_of_setting named]
      exact Value.print_of_overlong (Value.overlong_ofKind.mpr long)
    rw [Node.render, printed]
    rfl

theorem outcome_node (name : String) {n : Node} (short : ∀ s ∈ n.setting?, ¬ c.config.Overlong s) :
    (n.render name c).map (fun _ => ()) = (n.check name).mapError .fault := by
  cases n with
  | text x => rfl
  | action a =>
    have printed := outcome_print_pipeline short
    rw [Node.render, Node.check]
    generalize (a.pipeline.typeOf >>= ValueType.checkPrint) = checked at printed
    cases shown : a.pipeline.print c with
    | ok x =>
      rw [shown] at printed
      cases checked with
      | ok => rfl
      | error problem => cases printed
    | error obstacle =>
      rw [shown] at printed
      cases checked with
      | ok => cases printed
      | error problem =>
        cases printed
        rfl

theorem renderAll_of_overlong (name : String) {nodes : List Node}
    (named : s ∈ printedOf name nodes) (long : c.config.Overlong s) :
    renderAll name c nodes = .error .overlong := by
  induction nodes with
  | nil => cases named
  | cons n rest ih =>
    rw [renderAll]
    by_cases short : ∀ s ∈ n.setting?, ¬ c.config.Overlong s
    · have outcome := outcome_node name short
      rw [printedOf] at named
      rcases List.mem_append.mp named with here | behind
      · exact absurd long (short s (Option.mem_toList.mp here))
      · cases checked : n.check name with
        | error fault =>
          rw [checked] at behind
          cases behind
        | ok =>
          rw [checked] at behind outcome
          obtain ⟨x, shown, -⟩ := map_eq_ok_iff.mp outcome
          rw [shown, ih behind]
          rfl
    · obtain ⟨s, named, long⟩ : ∃ s ∈ n.setting?, c.config.Overlong s := by simpa using short
      rw [render_node_of_overlong name named long]
      rfl

theorem outcome_renderAll (name : String) {nodes : List Node}
    (short : ∀ s ∈ printedOf name nodes, ¬ c.config.Overlong s) :
    (renderAll name c nodes).map (fun _ => ()) = (checkAll name nodes).mapError .fault := by
  induction nodes with
  | nil => rfl
  | cons n rest ih =>
    rw [printedOf] at short
    have first := outcome_node name fun s named =>
      short s (List.mem_append_left _ (Option.mem_toList.mpr named))
    rw [renderAll, checkAll]
    cases checked : n.check name with
    | error fault =>
      rw [checked] at first
      rw [map_eq_error_iff.mp first]
      rfl
    | ok =>
      rw [checked] at first short
      obtain ⟨x, shown, -⟩ := map_eq_ok_iff.mp first
      have behind := ih fun s named => short s (List.mem_append_right _ named)
      rw [shown]
      show ((renderAll name c rest).map (x ++ ·)).map _ = (checkAll name rest).mapError _
      rw [← behind]
      cases renderAll name c rest <;> rfl

theorem not_writable_of_render {t : Template} (h : t.render c = .error .overlong) :
    ¬ c.config.Writable := by
  intro writable
  have outcome := outcome_renderAll t.name fun s (_ : s ∈ t.printed) => writable s
  rw [show renderAll t.name c t.nodes = .error .overlong from h] at outcome
  cases checked : checkAll t.name t.nodes with
  | ok => rw [checked] at outcome; cases outcome
  | error fault => rw [checked] at outcome; cases outcome

theorem render_of_check_eq_error {t : Template} {fault : RenderFault} (found : t.check = .error fault)
    (c : Context) : t.render c = .error (.fault fault) ∨
      (∃ s ∈ t.printed, c.config.Overlong s) ∧ t.render c = .error .overlong := by
  by_cases long : ∃ s ∈ t.printed, c.config.Overlong s
  · obtain ⟨s, named, exceeds⟩ := id long
    exact .inr ⟨long, renderAll_of_overlong t.name named exceeds⟩
  · have outcome := outcome_renderAll t.name fun s named exceeds => long ⟨s, named, exceeds⟩
    rw [show checkAll t.name t.nodes = .error fault from found] at outcome
    exact .inl (map_eq_error_iff.mp outcome)

/-- A list is printed, but is no name of a variable. -/
example :
    let vars : Command := ⟨.field ["Config", "EnvVars"], []⟩
    let check (p : Pipeline) := Template.check ⟨"t", [.text "a", .action ⟨p, 3⟩]⟩
    check ⟨vars, []⟩ = .ok () ∧
      check ⟨vars, [⟨.function .getenv, []⟩]⟩ = .error ⟨"t", 3, .notText "list"⟩ := ⟨rfl, rfl⟩

end CollectionRun.Template
