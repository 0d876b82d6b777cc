import CollectionRun.Proofs.Acts
import CollectionRun.Proofs.Template.Typing
import CollectionRun.RunOptions
import Mathlib.Data.List.Forall2

namespace CollectionRun

namespace Failure

/-- The step fault of the given sort and category that says `text`, with `cause` behind it. -/
structure Wraps (cause : Failure) (sort : StepFault) (category : Category) (text : String)
    (f : Failure) : Prop where
  sort : f.fault.sort? = some sort
  category : f.category = category
  message : f.message = text ++ ": " ++ cause.message
  causes : f.causes = cause.chain

theorem message_of (fault : Fault) (cause : Failure) :
    (of fault cause).message = fault.text ++ ": " ++ cause.message := by
  unfold message of chain
  rw [List.map_cons, List.map_cons, String.intercalate_cons_cons]

end Failure

namespace RunOptions

def Resolves (context : Template.Context) (source : String) : Prop :=
  ∃ t text, Template.read source = .ok t ∧ t.render context = .ok text

def ResolvesTo (context : Template.Context) (source text : String) : Prop :=
  ∃ t, Template.read source = .ok t ∧ t.render context = .ok text

/-- The failure of a template that cannot be read, or can but cannot be rendered in the context:
for a fault, or because it prints a count of too many digits. -/
inductive Fails (context : Template.Context) (source : String) : Failure → Prop
  | unread {fault : Template.SyntaxFault} (read : Template.read source = .error fault) :
    Fails context source ⟨.templateUnread, [.templateSyntax fault]⟩
  | unrendered {t : Template} {fault : Template.RenderFault} (read : Template.read source = .ok t)
      (rendered : t.render context = .error (.fault fault)) :
    Fails context source ⟨.templateUnrendered, [.templateRender fault]⟩
  | overlong {t : Template} (read : Template.read source = .ok t)
      (rendered : t.render context = .error .overlong) : Fails context source .overlong

variable {context : Template.Context} {source text : String} {sources texts : List String}
  {failure : Failure}

theorem resolveOne_eq_ok_iff :
    resolveOne context source = .ok text ↔ ResolvesTo context source text := by
  unfold resolveOne ResolvesTo
  cases Template.read source with
  | error fault => exact iff_of_false nofun nofun
  | ok t =>
    dsimp only
    constructor
    · intro h
      split at h
      · contradiction
      · contradiction
      · next rendered =>
        obtain rfl := Except.ok.inj h
        exact ⟨t, rfl, rendered⟩
    · rintro ⟨_, ⟨⟩, rendered⟩
      rw [rendered]

theorem resolveOne_eq_error_iff :
    resolveOne context source = .error failure ↔ Fails context source failure := by
  constructor
  · intro h
    unfold resolveOne at h
    split at h
    · next fault read =>
      obtain rfl := Except.error.inj h
      exact .unread read
    · next t read =>
      split at h
      · next fault rendered =>
        obtain rfl := Except.error.inj h
        exact .unrendered read rendered
      · next rendered =>
        obtain rfl := Except.error.inj h
        exact .overlong read rendered
      · contradiction
  · intro h
    unfold resolveOne
    cases h with
    | unread read => rw [read]
    | unrendered read rendered | overlong read rendered =>
      rw [read]
      dsimp only
      rw [rendered]

theorem Fails.wraps (h : Fails context source failure) :
    (∃ fault, Template.read source = .error fault ∧
      Failure.Wraps ⟨.templateSyntax fault, []⟩ .configuration .configuration
        "could not parse Bruno command template" failure) ∨
    (∃ t fault, Template.read source = .ok t ∧ t.render context = .error (.fault fault) ∧
      Failure.Wraps ⟨.templateRender fault, []⟩ .configuration .configuration
        "error on executing template" failure) ∨
    ∃ t, Template.read source = .ok t ∧ t.render context = .error .overlong ∧
      failure = .overlong ∧ ¬ context.config.Writable := by
  cases h with
  | @unread fault read =>
    have message := Failure.message_of .templateUnread ⟨.templateSyntax fault, []⟩
    exact .inl ⟨fault, read, rfl, rfl, message, rfl⟩
  | @unrendered t fault read rendered =>
    have message := Failure.message_of .templateUnrendered ⟨.templateRender fault, []⟩
    exact .inr (.inl ⟨t, fault, read, rendered, rfl, rfl, message, rfl⟩)
  | @overlong t read rendered =>
    exact .inr (.inr ⟨t, read, rendered, rfl, Template.not_writable_of_render rendered⟩)

theorem Fails.configuration (h : Fails context source failure) :
    failure.fault.sort? = some .configuration ∧ failure.category = .configuration ∨
      failure = .overlong ∧ ¬ context.config.Writable := by
  cases h with
  | unread | unrendered => exact .inl ⟨rfl, rfl⟩
  | overlong read rendered => exact .inr ⟨rfl, Template.not_writable_of_render rendered⟩

theorem exists_resolveOne_iff :
    (∃ text, resolveOne context source = .ok text) ↔ Resolves context source := by
  simp only [resolveOne_eq_ok_iff]
  exact exists_comm

theorem resolveAll_eq_ok_iff :
    resolveAll context sources = .ok texts ↔
      List.Forall₂ (ResolvesTo context) sources texts := by
  induction sources generalizing texts with
  | nil =>
    rw [List.forall₂_nil_left_iff]
    constructor
    · intro h
      exact (Except.ok.inj h).symm
    · rintro rfl
      rfl
  | cons source rest ih =>
    rw [List.forall₂_cons_left_iff, resolveAll, bind_eq_ok_iff]
    simp only [bind_eq_ok_iff, resolveOne_eq_ok_iff, ih]
    constructor
    · rintro ⟨text, one, later, all, h⟩
      exact ⟨text, later, one, all, (Except.ok.inj h).symm⟩
    · rintro ⟨text, later, one, all, rfl⟩
      exact ⟨text, one, later, all, rfl⟩

theorem exists_resolveAll_iff :
    (∃ texts, resolveAll context sources = .ok texts) ↔
      ∀ source ∈ sources, Resolves context source := by
  simp only [resolveAll_eq_ok_iff]
  induction sources with
  | nil => exact iff_of_true ⟨[], .nil⟩ (List.forall_mem_nil _)
  | cons source rest ih =>
    rw [List.forall_mem_cons, ← ih]
    constructor
    · rintro ⟨texts, all⟩
      obtain ⟨text, later, ⟨t, one⟩, all, -⟩ := List.forall₂_cons_left_iff.mp all
      exact ⟨⟨t, text, one⟩, later, all⟩
    · rintro ⟨⟨t, text, one⟩, later, all⟩
      exact ⟨text :: later, .cons ⟨t, one⟩ all⟩

/-- The first template that fails decides: those behind it are not even read. -/
theorem resolveAll_eq_error_iff :
    resolveAll context sources = .error failure ↔
      ∃ before source after, sources = before ++ source :: after ∧
        (∀ earlier ∈ before, Resolves context earlier) ∧ Fails context source failure := by
  induction sources with
  | nil =>
    refine iff_of_false nofun ?_
    rintro ⟨before, source, after, split, -⟩
    exact List.append_ne_nil_of_right_ne_nil before (List.cons_ne_nil _ _) split.symm
  | cons first rest ih =>
    rw [resolveAll, bind_eq_error_iff, resolveOne_eq_error_iff]
    constructor
    · -- The first entry fails, or it passes and the rest decides.
      rintro (fails | ⟨text, one, later⟩)
      · exact ⟨[], first, rest, rfl, List.forall_mem_nil _, fails⟩
      · rcases bind_eq_error_iff.mp later with fails | ⟨texts, -, returned⟩
        · obtain ⟨before, source, after, rfl, passed, fails⟩ := ih.mp fails
          have resolves := exists_resolveOne_iff.mp ⟨text, one⟩
          exact ⟨first :: before, source, after, rfl, List.forall_mem_cons.mpr ⟨resolves, passed⟩,
            fails⟩
        · contradiction
    · rintro ⟨before, source, after, split, passed, fails⟩
      cases before with
      | nil =>
        obtain ⟨rfl, rfl⟩ := List.cons.inj split
        exact .inl fails
      | cons first' before =>
        obtain ⟨rfl, rfl⟩ := List.cons.inj split
        obtain ⟨resolves, passed⟩ := List.forall_mem_cons.mp passed
        obtain ⟨text, one⟩ := exists_resolveOne_iff.mpr resolves
        have fails := ih.mpr ⟨before, source, after, rfl, passed, fails⟩
        exact .inr ⟨text, one, bind_eq_error_iff.mpr (.inl fails)⟩

variable {σ : Type}

theorem play_resolving_eq (c : Config) (getenv : String → Option String) (j : Journal σ) :
    (resolving c getenv).play j = (resolve c getenv, match resolve c getenv with
      | .ok options => { j with events := j.events ++ [.optionsResolved options] }
      | .error _ => j) := by
  unfold resolving
  rw [Act.play_bind]
  cases resolve c getenv <;> rfl

/-- The run options of a configuration are resolved exactly if each of them is, on its own: the
texts are theirs, in order, and are noted. Else the first that fails decides the failure, whatever
comes after it, and nothing is noted. The failure is one of configuration with the cause behind it,
unless a count of too many digits is to be printed. -/
theorem play_resolving (c : Config) (getenv : String → Option String) (j : Journal σ) :
    let context := c.templateContext getenv
    let sources : List String := c.get .runOptions
    let played := (resolving c getenv).play j
    ((∃ texts, played.1 = .ok texts) ↔ ∀ source ∈ sources, Resolves context source) ∧
      (∀ texts, played.1 = .ok texts ↔ List.Forall₂ (ResolvesTo context) sources texts) ∧
      (∀ failure, played.1 = .error failure ↔ ∃ before source after,
        sources = before ++ source :: after ∧
          (∀ earlier ∈ before, Resolves context earlier) ∧ Fails context source failure) ∧
      (∀ source failure, Fails context source failure →
        (∃ fault, Template.read source = .error fault ∧
          Failure.Wraps ⟨.templateSyntax fault, []⟩ .configuration .configuration
            "could not parse Bruno command template" failure) ∨
        (∃ t fault, Template.read source = .ok t ∧ t.render context = .error (.fault fault) ∧
          Failure.Wraps ⟨.templateRender fault, []⟩ .configuration .configuration
            "error on executing template" failure) ∨
        ∃ t, Template.read source = .ok t ∧ t.render context = .error .overlong ∧
          failure = .overlong ∧ ¬ c.Writable) ∧
      (∀ texts, played.1 = .ok texts →
        played.2 = { j with events := j.events ++ [.optionsResolved texts] }) ∧
      ∀ failure, played.1 = .error failure → played.2 = j := by
  intro context sources played
  have same : played = _ := play_resolving_eq c getenv j
  have outcome : played.1 = resolveAll context sources := congrArg Prod.fst same
  rw [outcome]
  refine ⟨exists_resolveAll_iff, fun texts => resolveAll_eq_ok_iff,
    fun failure => resolveAll_eq_error_iff, fun source failure => Fails.wraps, ?_, ?_⟩
  · intro texts resolved
    have found : resolve c getenv = .ok texts := resolved
    rw [same, found]
  · intro failure unresolved
    have found : resolve c getenv = .error failure := unresolved
    rw [same, found]

/-- The second run option cannot be rendered, so that it does not matter that the third cannot be
read. -/
theorem play_resolving_of_unread_behind_unrendered :
    let c := Config.standard.set .runOptions ["run", "\x7b\x7b.Name\x7d\x7d", "\x7b\x7b"]
    let fault : Template.RenderFault := ⟨"template", 1, .noField "Name" "TemplateContext"⟩
    let failure : Failure := ⟨.templateUnrendered, [.templateRender fault]⟩
    let played := (resolving c fun _ => none).play (⟨[], ()⟩ : Journal Unit)
    (∃ unread, Template.read "\x7b\x7b" = .error unread) ∧
      Fails (c.templateContext fun _ => none) "\x7b\x7b.Name\x7d\x7d" failure ∧
      played.1 = .error failure ∧ played.2 = ⟨[], ()⟩ := by
  intro c fault failure played
  let context := c.templateContext fun _ => none
  have plain : Template.read "run" = .ok ⟨"template", [.text "run"]⟩ := by
    have cut : Template.segments "run" = [.text "run".toList] := by decide +kernel
    rw [Template.read, cut]
    with_unfolding_all rfl
  have field : Template.read "\x7b\x7b.Name\x7d\x7d" =
      .ok ⟨"template", [.action ⟨⟨⟨.field ["Name"], []⟩, []⟩, 1⟩]⟩ := by
    have cut : Template.segments "\x7b\x7b.Name\x7d\x7d" =
        [.text [], .body ".Name".toList 1, .text []] := by decide +kernel
    rw [Template.read, cut]
    with_unfolding_all rfl
  have unclosed : Template.read "\x7b\x7b" = .error ⟨"template", 1, .unclosedAction⟩ := by
    have cut : Template.segments "\x7b\x7b" = [.text [], .unclosed 1] := by decide +kernel
    rw [Template.read, cut]
    rfl
  have fails : Fails context "\x7b\x7b.Name\x7d\x7d" failure := .unrendered field rfl
  obtain ⟨-, -, failed, -, -, noted⟩ := play_resolving c (fun _ => none) (⟨[], ()⟩ : Journal Unit)
  have resolves : ∀ earlier ∈ ["run"], Resolves context earlier :=
    List.forall_mem_singleton.mpr ⟨_, _, plain, rfl⟩
  have outcome : played.1 = .error failure :=
    (failed failure).mpr ⟨["run"], _, ["\x7b\x7b"], rfl, resolves, fails⟩
  exact ⟨⟨_, unclosed⟩, fails, outcome, noted failure outcome⟩

end RunOptions

end CollectionRun
