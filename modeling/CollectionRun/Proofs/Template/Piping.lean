import CollectionRun.Proofs.Template.Embedding
import CollectionRun.Proofs.Template.Typing
import CollectionRun.Proofs.Template.Writing
import Mathlib.Logic.Function.Iterate

namespace CollectionRun.Template

open Text

def piped (o : Operand) (pipes : Nat) : Pipeline :=
  ⟨⟨o, []⟩, List.replicate pipes ⟨.function .getenv, []⟩⟩

def applied (o : Operand) : Pipeline := ⟨⟨.function .getenv, [o]⟩, []⟩

def pipedText (o : Operand) (pipes : Nat) : String :=
  o.text ++ String.join (List.replicate pipes " | getenv")

def appliedText (o : Operand) : String := "getenv " ++ o.text

/-- What is found under a name; an absent variable counts as empty. -/
def Context.lookup (c : Context) (name : String) : String := (c.getenv name).getD ""

section

variable (c : Context) (o : Operand)

theorem eval_applied :
    (applied o).eval c = o.eval c >>= fun v => Function.getenv.call c [v] := by
  unfold applied Pipeline.eval Command.eval evalAll
  cases o.eval c with
  | error problem => rfl
  | ok v =>
    show (Function.getenv.call c [v] >>= fun w => evalFrom c w []) = Function.getenv.call c [v]
    cases Function.getenv.call c [v] <;> rfl

theorem eval_piped_succ (pipes : Nat) : (piped o (pipes + 1)).eval c =
    (applied o).eval c >>= fun v => evalFrom c v (piped o pipes).later := by
  rw [eval_applied, piped, List.replicate_succ, Pipeline.eval, eval_bare]
  cases o.eval c with
  | error problem => rfl
  | ok v => rfl

theorem evalFrom_piped (s : String) (pipes : Nat) :
    evalFrom c (.text s) (piped o pipes).later = .ok (.text (c.lookup^[pipes] s)) := by
  induction pipes generalizing s with
  | zero => rfl
  | succ pipes ih => exact ih (c.lookup s)

theorem eval_piped_one : (piped o 1).eval c = (applied o).eval c := by
  rw [eval_piped_succ]
  cases (applied o).eval c <;> rfl

variable {c o} {problem : RenderProblem}

theorem eval_piped_of_refused (refused : (applied o).eval c = .error problem) (pipes : Nat) :
    (piped o (pipes + 1)).eval c = .error problem := by
  rw [eval_piped_succ, refused]
  rfl

theorem eval_applied_of_error (fails : o.eval c = .error problem) :
    (applied o).eval c = .error problem := by
  rw [eval_applied, fails]
  rfl

theorem eval_applied_of_value {v : Value} (value : o.eval c = .ok v) (other : v.type ≠ .text) :
    (applied o).eval c = .error (.notText v.typeName) := by
  rw [eval_applied, value]
  cases v with
  | text x => exact absurd rfl other
  | _ => rfl

theorem eval_applied_of_text {x : String} (value : o.eval c = .ok (.text x)) :
    (applied o).eval c = .ok (.text (c.lookup x)) := by
  rw [eval_applied, value]
  rfl

theorem eval_piped_of_text {x : String} (value : o.eval c = .ok (.text x)) (pipes : Nat) :
    (piped o (pipes + 1)).eval c = .ok (.text (c.lookup^[pipes + 1] x)) := by
  rw [eval_piped_succ, eval_applied_of_text value]
  exact evalFrom_piped c o (c.lookup x) pipes

end

theorem spelled_applied {o : Operand} (written : o.WellFormed) :
    Spelled (applied o).items (appliedText o).toList := by
  have blank : ∀ c ∈ [' '], isBlank c = true := List.all_eq_true.mp rfl
  have apart : (Item.operand (.function .getenv)).runsInto ([' '] ++ o.text.toList) = false :=
    runsInto_of_head? rfl _
  have text : (appliedText o).toList = "getenv".toList ++ [' '] ++ o.text.toList :=
    String.toList_append
  rw [text]
  exact .more (.function .getenv) blank apart (.last written)

theorem pipedText_succ (o : Operand) (pipes : Nat) : (pipedText o (pipes + 1)).toList =
    o.text.toList ++ [' '] ++ (['|'] ++ [' '] ++ (pipedText (.function .getenv) pipes).toList) := by
  unfold pipedText
  rw [List.replicate_succ, String.join_cons, String.toList_append, String.toList_append,
    String.toList_append, List.append_assoc]
  rfl

theorem spelled_piped {o : Operand} (written : o.WellFormed) (pipes : Nat) :
    Spelled (piped o pipes).items (pipedText o pipes).toList := by
  have blank : ∀ c ∈ [' '], isBlank c = true := List.all_eq_true.mp rfl
  -- For all operands at once: behind the first pipe the function stands where the operand stood.
  induction pipes generalizing o with
  | zero =>
    have text : pipedText o 0 = o.text := String.append_empty
    rw [text]
    exact .last written
  | succ pipes ih =>
    have apart (item : Item) (cs : List Char) : item.runsInto ([' '] ++ cs) = false :=
      runsInto_of_head? rfl item
    have later := ih (.function .getenv)
    rw [pipedText_succ]
    exact .more written blank (apart _ _) (.more trivial blank (apart .pipe _) later)

theorem typeFrom_append (t : ValueType) (before after : List Command) :
    typeFrom t (before ++ after) = typeFrom t before >>= fun u => typeFrom u after := by
  induction before generalizing t with
  | nil => rfl
  | cons command before ih =>
    rw [List.cons_append, typeFrom, typeFrom]
    cases command.typeOf (some t) with
    | error problem => rfl
    | ok u => exact ih u

theorem typeOf_of_given {command : Command} (value : ∀ f, command.head ≠ .function f)
    {piped? : Option ValueType} (given : command.arguments ≠ [] ∨ piped?.isSome) :
    command.typeOf piped? = .error (.argumentForValue command.head.text) := by
  have refused : (command.arguments.isEmpty && piped?.isNone) = false := by
    rcases given with arguments | piped
    · rw [List.isEmpty_eq_false_iff.mpr arguments, Bool.false_and]
    · rw [Option.isNone_eq_false_iff.mpr piped, Bool.and_false]
  obtain ⟨head, arguments⟩ := command
  cases head with
  | function f => exact absurd rfl (value f)
  | literal | field => simp only [Command.typeOf, refused, Bool.false_eq_true, if_false]

/-- A command that begins with no function is given an argument, or a value by the one before it. -/
def Pipeline.Misapplies (p : Pipeline) : Prop :=
  ∃ before command after, p.commands = before ++ command :: after ∧
    (∀ f, command.head ≠ .function f) ∧ (command.arguments ≠ [] ∨ before ≠ [])

theorem typeOf_of_misapplies {p : Pipeline} (misapplies : p.Misapplies) :
    ∃ problem, p.typeOf = .error problem := by
  obtain ⟨before, command, after, place, value, given⟩ := misapplies
  obtain ⟨first, later⟩ := p
  rw [Pipeline.typeOf]
  cases before with
  | nil =>
    obtain ⟨rfl, rfl⟩ := List.cons.inj place
    have arguments : first.arguments ≠ [] := given.resolve_right (absurd rfl)
    rw [typeOf_of_given value (.inl arguments)]
    exact ⟨_, rfl⟩
  | cons d before =>
    obtain ⟨rfl, rfl⟩ := List.cons.inj place
    cases first.typeOf none with
    | error problem => exact ⟨problem, rfl⟩
    | ok t =>
      show ∃ problem, typeFrom t (before ++ command :: after) = .error problem
      rw [typeFrom_append]
      cases typeFrom t before with
      | error problem => exact ⟨problem, rfl⟩
      | ok u =>
        have refused := typeOf_of_given value (.inr (Option.isSome_some (a := u)))
        show ∃ problem, typeFrom u (command :: after) = .error problem
        rw [typeFrom, refused]
        exact ⟨_, rfl⟩

theorem checkAll_of_mem (name : String) {n : Node} {nodes : List Node} (member : n ∈ nodes)
    {fault : RenderFault} (fails : n.check name = .error fault) :
    ∃ fault, checkAll name nodes = .error fault := by
  induction member with
  | head rest =>
    rw [checkAll, fails]
    exact ⟨fault, rfl⟩
  | @tail m rest _ ih =>
    rw [checkAll]
    cases m.check name with
    | error earlier => exact ⟨earlier, rfl⟩
    | ok => exact ih

theorem eval_of_misapplies {p : Pipeline} (misapplies : p.Misapplies) :
    ∃ problem, ∀ c, p.eval c = .error problem := by
  obtain ⟨problem, refused⟩ := typeOf_of_misapplies misapplies
  exact ⟨problem, fun c => map_eq_error_iff.mp ((map_type_pipeline c p).trans refused)⟩

theorem render_of_misapplies {t : Template} {a : Action} (member : .action a ∈ t.nodes)
    (misapplies : a.pipeline.Misapplies) : ∃ fault, ∀ c, t.render c = .error (.fault fault) ∨
      (∃ s ∈ t.printed, c.config.Overlong s) ∧ t.render c = .error .overlong := by
  obtain ⟨problem, refused⟩ := typeOf_of_misapplies misapplies
  have fails : (Node.action a).check t.name = .error ⟨t.name, a.line, problem⟩ := by
    rw [Node.check, refused]
    rfl
  obtain ⟨fault, found⟩ := checkAll_of_mem t.name member fails
  exact ⟨fault, render_of_check_eq_error found⟩

/-- An operand that is piped into the function is rendered as if it were its argument: as what the
environment has under its text, or with the same fault if it fails or is no text. Every further
pipe looks up once more. -/
theorem render_piped {before after : String} (plainBefore : ¬ openingBraces <:+: before.toList)
    (ends : before.toList.getLast? ≠ some '\x7b') (plainAfter : ¬ openingBraces <:+: after.toList)
    (name : String) :
    (∀ o : Operand, o.WellFormed →
      ∃ t, Template.read (embed before (appliedText o) after) name = .ok t ∧
        (∃ once, Template.read (embed before (pipedText o 1) after) name = .ok once ∧
          ∀ c, once.render c = t.render c) ∧
        ∀ pipes, ∃ u, Template.read (embed before (pipedText o (pipes + 1)) after) name = .ok u ∧
          ∀ c : Context,
            let fails (problem : RenderProblem) :=
              let fault := ⟨name, 1 + before.toList.count '\n', problem⟩
              t.render c = .error (.fault fault) ∧ u.render c = .error (.fault fault)
            (∀ problem, o.eval c = .error problem → fails problem) ∧
              (∀ v, o.eval c = .ok v → v.type ≠ .text → fails (.notText v.typeName)) ∧
              ∀ x, o.eval c = .ok (.text x) →
                t.render c = .ok (before ++ c.lookup x ++ after) ∧
                  u.render c = .ok (before ++ c.lookup^[pipes + 1] x ++ after)) ∧
      ∀ (t : Template) (a : Action), .action a ∈ t.nodes → a.pipeline.Misapplies →
        (∃ problem, ∀ c, a.pipeline.eval c = .error problem) ∧
          ∃ fault, ∀ c, t.render c = .error (.fault fault) ∨
            (∃ s ∈ t.printed, c.config.Overlong s) ∧ t.render c = .error .overlong := by
  refine ⟨fun o written => ?_, fun t a member misapplies =>
    ⟨eval_of_misapplies misapplies, render_of_misapplies member misapplies⟩⟩
  have read {p : Pipeline} {spelling : String} (spelled : Spelled p.items spelling.toList) :=
    read_embed plainBefore ends plainAfter spelled name
  have application := read (spelled_applied written)
  have pipe (pipes : Nat) := read (spelled_piped written (pipes + 1))
  refine ⟨_, application, ⟨_, pipe 0, fun c => ?_⟩, fun pipes => ⟨_, pipe pipes, ?_⟩⟩
  · rw [render_around, render_around, Node.render, Node.render, Pipeline.print, Pipeline.print,
      eval_piped_one]
  · intro c fails
    have refused {problem : RenderProblem} (h : (applied o).eval c = .error problem) :
        fails problem := by
      constructor
      · rw [render_around, Node.render, Pipeline.print, h]
        rfl
      · rw [render_around, Node.render, Pipeline.print, eval_piped_of_refused h]
        rfl
    refine ⟨fun problem h => refused (eval_applied_of_error h),
      fun v h other => refused (eval_applied_of_value h other), fun x h => ?_⟩
    rw [render_around, render_around, Node.render, Node.render, Pipeline.print, Pipeline.print,
      eval_applied_of_text h, eval_piped_of_text h]
    exact ⟨rfl, rfl⟩

theorem render_piped_of_two_lookups :
    let environment : String → Option String := fun name => if name = "A" then some "B" else none
    let c : Context := ⟨"", "", .standard, environment⟩
    let dotted : Pipeline := ⟨⟨.literal "a" "\"a\"", []⟩, [⟨.field [], []⟩]⟩
    (∃ t, Template.read "<\x7b\x7b\"A\" | getenv\x7d\x7d>" = .ok t ∧ t.render c = .ok "<B>") ∧
      (∃ t, Template.read "<\x7b\x7b\"A\" | getenv | getenv\x7d\x7d>" = .ok t ∧
        t.render c = .ok "<>") ∧
      (∃ t, Template.read "<\x7b\x7b. | getenv | getenv\x7d\x7d>" = .ok t ∧
        t.render c =
        .error (.fault ⟨Template.standardName, 1, .notText "TemplateContext"⟩)) ∧
      ∃ problem, ∀ c, dotted.eval c = .error problem := by
  intro environment c dotted
  let o : Operand := .literal "A" "\"A\""
  have written : o.WellFormed := .quoted (by decide)
  have dot : (Operand.field []).WellFormed := .field (List.forall_mem_nil _)
  have plain : ¬ openingBraces <:+: "<".toList ∧ ¬ openingBraces <:+: ">".toList := by decide
  have ends : "<".toList.getLast? ≠ some '\x7b' := by decide
  obtain ⟨actions, fails⟩ := render_piped plain.1 ends plain.2 Template.standardName
  obtain ⟨_, -, -, piped⟩ := actions o written
  obtain ⟨_, -, -, dotPiped⟩ := actions (.field []) dot
  have looked (pipes : Nat) : ∃ u, Template.read (embed "<" (pipedText o (pipes + 1)) ">") = .ok u ∧
      u.render c = .ok ("<" ++ c.lookup^[pipes + 1] "A" ++ ">") := by
    obtain ⟨u, read, rendered⟩ := piped pipes
    exact ⟨u, read, ((rendered c).2.2 "A" rfl).2⟩
  obtain ⟨u, read, rendered⟩ := dotPiped 1
  have refused := ((rendered c).2.1 (.context c) rfl nofun).2
  refine ⟨looked 0, looked 1, ⟨u, read, refused⟩, ?_⟩
  refine (fails ⟨"t", [.action ⟨dotted, 1⟩]⟩ _ List.mem_cons_self ?_).1
  exact ⟨[dotted.first], ⟨.field [], []⟩, [], rfl, nofun, .inr (List.cons_ne_nil _ _)⟩

end CollectionRun.Template
