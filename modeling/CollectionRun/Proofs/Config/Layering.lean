import CollectionRun.Proofs.Config.Validation
import Mathlib.Data.List.Nodup

/-!
`Raw` tells which value counts for a setting: that of the last parameter that names it, else that
of the environment, else that of the environment file, else none. Building a configuration is
validating these values, unless a list of the two lower layers cannot be read (`build_layered`).
-/

namespace CollectionRun

open Spelling

theorem find?_reverse_eq_some_iff {α : Type} {p : α → Bool} {xs : List α} {x : α} :
    xs.reverse.find? p = some x ↔
      ∃ before after, xs = before ++ x :: after ∧ p x = true ∧ ∀ y ∈ after, p y = false := by
  rw [List.find?_eq_some_iff_append]
  constructor
  · rintro ⟨holds, after, before, split, fails⟩
    refine ⟨before.reverse, after.reverse, ?_, holds, fun y member => ?_⟩
    · rw [← List.reverse_reverse xs, split]
      simp
    · simpa using fails y (List.mem_reverse.mp member)
  · rintro ⟨before, after, rfl, holds, fails⟩
    refine ⟨holds, after.reverse, before.reverse, by simp, fun y member => ?_⟩
    simpa using fails y (List.mem_reverse.mp member)

theorem ne_of_nodup_map {α β : Type} {f : α → β} {before after : List α} {x y : α}
    (nodup : ((before ++ x :: after).map f).Nodup) (later : y ∈ after) : f y ≠ f x := by
  rw [List.map_append, List.map_cons, List.nodup_append, List.nodup_cons] at nodup
  intro same
  exact nodup.2.1.1 (same ▸ List.mem_map_of_mem later)

namespace Parameters

def Names (ps : Parameters) (s : Setting) : Prop := ∃ p ∈ ps.entries, snakeCase p.1 = s.name

/-- The last parameter that names the setting has the value `v`. -/
def LastFor (ps : Parameters) (s : Setting) (v : Json.Value) : Prop :=
  ∃ before key after, ps.entries = before ++ (key, v) :: after ∧ snakeCase key = s.name ∧
    ∀ p ∈ after, snakeCase p.1 ≠ s.name

variable {ps : Parameters} {s : Setting} {v : Json.Value}

theorem ofParameters_eq_some_iff : Layer.ofParameters ps s = some v ↔ ps.LastFor s v := by
  unfold Layer.ofParameters LastFor
  rw [Option.map_eq_some_iff]
  constructor
  · rintro ⟨⟨key, v'⟩, found, rfl⟩
    obtain ⟨before, after, split, named, unnamed⟩ := find?_reverse_eq_some_iff.mp found
    exact ⟨before, key, after, split, of_decide_eq_true named, fun p member =>
      of_decide_eq_false (unnamed p member)⟩
  · rintro ⟨before, key, after, split, named, unnamed⟩
    refine ⟨(key, v), find?_reverse_eq_some_iff.mpr ⟨before, after, split, ?_, ?_⟩, rfl⟩
    · exact decide_eq_true named
    · exact fun p member => decide_eq_false (unnamed p member)

theorem ofParameters_eq_none_iff : Layer.ofParameters ps s = none ↔ ¬ ps.Names s := by
  unfold Layer.ofParameters Names
  rw [Option.map_eq_none_iff, List.find?_eq_none]
  simp only [List.mem_reverse, decide_eq_true_eq, not_exists, not_and]

end Parameters

/-! ### Variables -/

abbrev Variables := List (String × Option String)

namespace Variables

/-- No two names are equal up to case. -/
def Apart (vars : Variables) : Prop := (vars.map fun v => smallCase v.1).Nodup

/-- The last variable under any case of the setting's name has the value `text`. -/
def LastFor (vars : Variables) (s : Setting) (text : String) : Prop :=
  ∃ before n after, vars = before ++ (n, some text) :: after ∧ smallCase n = s.environmentName ∧
    ∀ e ∈ after, smallCase e.1 ≠ s.environmentName

def Unparsed (vars : Variables) (s : Setting) : Prop :=
  s.kind = .words ∧ ∃ text, vars.LastFor s text ∧ Json.read? text = none

def Give (vars : Variables) (s : Setting) (text : String) : Prop :=
  ∃ n, smallCase n = s.environmentName ∧ (n, some text) ∈ vars

/-- The variable of a list does not hold JSON. -/
def Unreadable (vars : Variables) (s : Setting) : Prop :=
  s.kind = .words ∧ ∃ text, vars.Give s text ∧ Json.read? text = none

def FirstUnreadable (vars : Variables) (s : Setting) : Prop :=
  vars.Unreadable s ∧ ∃ before after, Setting.all = before ++ s :: after ∧
    ∀ t ∈ before, ¬ vars.Unreadable t

end Variables

/-- What a text means for a setting: a list is JSON, of which `null` means nothing. -/
inductive Means (s : Setting) (text : String) : Json.Value → Prop
  | list {v : Json.Value} (kind : s.kind = .words) (read : Json.read? text = some v)
      (set : v ≠ .null) : Means s text v
  | plain (kind : s.kind ≠ .words) : Means s text (.string text)

namespace Variables

def Say (vars : Variables) (s : Setting) (v : Json.Value) : Prop :=
  ∃ text, vars.Give s text ∧ Means s text v

variable {vars : Variables} {s : Setting} {text : String} {v : Json.Value}

theorem textOf_eq_some_iff : Layer.textOf vars s = some text ↔ vars.LastFor s text := by
  unfold Layer.textOf LastFor
  constructor
  · intro h
    split at h
    · next name text? found =>
      obtain rfl : text? = some text := h
      obtain ⟨before, after, split, named, unnamed⟩ := find?_reverse_eq_some_iff.mp found
      exact ⟨before, name, after, split, of_decide_eq_true named, fun e member =>
        of_decide_eq_false (unnamed e member)⟩
    · contradiction
  · rintro ⟨before, name, after, split, named, unnamed⟩
    have found : (vars.reverse.find? fun v => smallCase v.1 = s.environmentName) =
        some (name, some text) :=
      find?_reverse_eq_some_iff.mpr ⟨before, after, split, decide_eq_true named,
        fun e member => decide_eq_false (unnamed e member)⟩
    rw [found]

theorem lastFor_iff_give (apart : vars.Apart) : vars.LastFor s text ↔ vars.Give s text := by
  constructor
  · rintro ⟨before, name, after, rfl, named, -⟩
    exact ⟨name, named, List.mem_append_right _ List.mem_cons_self⟩
  · rintro ⟨name, named, member⟩
    obtain ⟨before, after, rfl⟩ := List.append_of_mem member
    refine ⟨before, name, after, rfl, named, fun e later same => ?_⟩
    exact ne_of_nodup_map apart later (same.trans named.symm)

theorem mem_names_of_give (given : vars.Give s text) :
    s.environmentName ∈ vars.map fun v => smallCase v.1 := by
  obtain ⟨n, named, member⟩ := given
  rw [← named]
  exact List.mem_map_of_mem (f := fun v : String × Option String => smallCase v.1) member

theorem unparsed_iff_unreadable (apart : vars.Apart) : vars.Unparsed s ↔ vars.Unreadable s := by
  simp only [Unparsed, Unreadable, lastFor_iff_give apart]

theorem ofText?_eq_none_iff : Layer.ofText? s text = none ↔ s.kind = .words ∧ Json.read? text = none := by
  unfold Layer.ofText?
  by_cases list : s.kind = .words
  · rw [if_pos list, and_iff_right list]
    cases Json.read? text with
    | none => simp
    | some v => cases v <;> simp
  · simp [list]

theorem ofText?_eq_some_iff : Layer.ofText? s text = some (some v) ↔ Means s text v := by
  unfold Layer.ofText?
  by_cases list : s.kind = .words
  · rw [if_pos list]
    constructor
    · intro h
      split at h
      · cases h
      · next v' set read =>
        obtain rfl : v' = v := by simpa using h
        exact .list list read set
      · cases h
    · rintro (⟨_, read, set⟩ | ⟨other⟩)
      · rw [read]
        split
        · next null => exact absurd (Option.some.inj null) set
        · next read' => rw [read']
        · contradiction
      · exact absurd list other
  · rw [if_neg list]
    constructor
    · intro h
      obtain rfl : .string text = v := by simpa using h
      exact .plain list
    · rintro (⟨list', _, _⟩ | ⟨_⟩)
      · exact absurd list' list
      · rfl

end Variables

namespace Layer

def given? (vars : Variables) (s : Setting) : Option (Option Json.Value) :=
  match textOf vars s with
  | some text => ofText? s text
  | none => some none

variable {vars : Variables} {s : Setting} {v : Json.Value}

theorem given?_eq_none_iff : given? vars s = none ↔ vars.Unparsed s := by
  unfold given? Variables.Unparsed
  constructor
  · intro h
    split at h
    · next text found =>
      obtain ⟨list, unread⟩ := Variables.ofText?_eq_none_iff.mp h
      exact ⟨list, text, Variables.textOf_eq_some_iff.mp found, unread⟩
    · contradiction
  · rintro ⟨list, text, given, unread⟩
    rw [Variables.textOf_eq_some_iff.mpr given]
    exact Variables.ofText?_eq_none_iff.mpr ⟨list, unread⟩

theorem join_given?_eq_some_iff (apart : vars.Apart) :
    (given? vars s).join = some v ↔ vars.Say s v := by
  unfold given? Variables.Say
  simp only [← Variables.lastFor_iff_give apart]
  rw [Option.join_eq_some_iff]
  constructor
  · intro h
    split at h
    · next text found =>
      exact ⟨text, Variables.textOf_eq_some_iff.mp found, Variables.ofText?_eq_some_iff.mp h⟩
    · cases h
  · rintro ⟨text, given, means⟩
    rw [Variables.textOf_eq_some_iff.mpr given]
    exact Variables.ofText?_eq_some_iff.mpr means

/-- The first list that is not JSON is reported, and where all are, the variables are a layer. -/
theorem ofVariables_cases (vars : Variables) :
    (∃ t, ofVariables vars = .error t ∧ vars.Unparsed t ∧ ∃ before after,
        Setting.all = before ++ t :: after ∧ ∀ t' ∈ before, ¬ vars.Unparsed t') ∨
      (ofVariables vars = .ok fun s => (given? vars s).join) ∧ ∀ s, ¬ vars.Unparsed s := by
  have unparsed (s : Setting) : (given? vars s).isNone = true ↔ vars.Unparsed s := by
    rw [Option.isNone_iff_eq_none, given?_eq_none_iff]
  unfold ofVariables
  dsimp only
  split
  · next t found =>
    replace found : (Setting.all.find? fun s => (given? vars s).isNone) = some t := found
    obtain ⟨fails, before, after, parts, earlier⟩ := List.find?_eq_some_iff_append.mp found
    refine .inl ⟨t, rfl, (unparsed t).mp fails, before, after, parts, fun t' member fails' => ?_⟩
    have reads := earlier t' member
    rw [(unparsed t').mpr fails'] at reads
    contradiction
  · next found =>
    exact .inr ⟨rfl, fun s fails => List.find?_eq_none.mp found s s.mem_all ((unparsed s).mpr fails)⟩

theorem ofVariables_of_unreadable (apart : vars.Apart) (unread : vars.Unreadable s) :
    ∃ t, vars.FirstUnreadable t ∧ ofVariables vars = .error t := by
  rcases ofVariables_cases vars with ⟨t, found, fails, first⟩ | ⟨-, reads⟩
  · simp only [Variables.unparsed_iff_unreadable apart] at fails first
    exact ⟨t, ⟨fails, first⟩, found⟩
  · exact absurd ((Variables.unparsed_iff_unreadable apart).mpr unread) (reads s)

theorem ofVariables_of_readable (apart : vars.Apart) (read : ∀ s, ¬ vars.Unreadable s) :
    ∃ layer, ofVariables vars = .ok layer ∧ ∀ s v, layer s = some v ↔ vars.Say s v := by
  rcases ofVariables_cases vars with ⟨t, -, fails, -⟩ | ⟨found, -⟩
  · exact absurd ((Variables.unparsed_iff_unreadable apart).mp fails) (read t)
  · exact ⟨_, found, fun s v => join_given?_eq_some_iff apart⟩

end Layer

/-! ### The value that counts -/

namespace Surroundings

def variablesOf (w : Surroundings) : Source → Variables
  | .environment => w.environment.entries.map fun (n, v) => (n, some v)
  | .envFile => (w.envFile.map fun text => (EnvFile.values text w.environment).entries).getD []

/-- The first setting that stops the building, the environment being read before the file. -/
def StoppedBy (w : Surroundings) (s : Setting) : Source → Prop
  | .environment => (w.variablesOf .environment).FirstUnreadable s
  | .envFile =>
    (∀ t, ¬ (w.variablesOf .environment).Unreadable t) ∧
      (w.variablesOf .envFile).FirstUnreadable s

theorem environmentLayer_eq (w : Surroundings) :
    w.environmentLayer =
      (Layer.ofVariables (w.variablesOf .environment)).mapError (.unreadable · .environment) := rfl

theorem envFileLayer_eq (w : Surroundings) :
    w.envFileLayer =
      (Layer.ofVariables (w.variablesOf .envFile)).mapError (.unreadable · .envFile) := by
  unfold envFileLayer variablesOf
  cases w.envFile with
  | some text => rfl
  | none => rfl

end Surroundings

/-- The value that counts for a setting, if one is given at all. -/
inductive Raw (w : Surroundings) (ps : Parameters) (s : Setting) : Option Json.Value → Prop
  | parameter {v : Json.Value} (last : ps.LastFor s v) : Raw w ps s (some v)
  | environment {v : Json.Value} (unnamed : ¬ ps.Names s)
      (said : (w.variablesOf .environment).Say s v) : Raw w ps s (some v)
  | envFile {v : Json.Value} (unnamed : ¬ ps.Names s)
      (unset : ∀ v, ¬ (w.variablesOf .environment).Say s v)
      (said : (w.variablesOf .envFile).Say s v) : Raw w ps s (some v)
  | default (unnamed : ¬ ps.Names s) (unset : ∀ source v, ¬ (w.variablesOf source).Say s v) :
      Raw w ps s none

namespace Layer

def Shows (layer : Layer) (vars : Variables) : Prop := ∀ s v, layer s = some v ↔ vars.Say s v

def firstOf (ps : Parameters) (environment envFile : Layer) : Layer := fun s =>
  (ofParameters ps s).or ((environment s).or (envFile s))

variable {w : Surroundings} {ps : Parameters} {environment envFile : Layer}

theorem Shows.eq_none_iff {layer : Layer} {vars : Variables} (shows' : layer.Shows vars)
    {s : Setting} : layer s = none ↔ ∀ v, ¬ vars.Say s v := by
  rw [Option.eq_none_iff_forall_ne_some]
  simp only [ne_eq, shows' s]

theorem raw_iff (env : environment.Shows (w.variablesOf .environment))
    (file : envFile.Shows (w.variablesOf .envFile)) (s : Setting) (given? : Option Json.Value) :
    Raw w ps s given? ↔ given? = firstOf ps environment envFile s := by
  unfold firstOf
  constructor
  · rintro (last | ⟨unnamed, said⟩ | ⟨unnamed, unset, said⟩ | ⟨unnamed, unset⟩)
    · rw [Parameters.ofParameters_eq_some_iff.mpr last]
      rfl
    · rw [Parameters.ofParameters_eq_none_iff.mpr unnamed, (env s _).mpr said]
      rfl
    · rw [Parameters.ofParameters_eq_none_iff.mpr unnamed, env.eq_none_iff.mpr unset,
        (file s _).mpr said]
      rfl
    · rw [Parameters.ofParameters_eq_none_iff.mpr unnamed, env.eq_none_iff.mpr (unset _),
        file.eq_none_iff.mpr (unset _)]
      rfl
  · rintro rfl
    cases named : ofParameters ps s with
    | some v => exact .parameter (Parameters.ofParameters_eq_some_iff.mp named)
    | none =>
      have unnamed := Parameters.ofParameters_eq_none_iff.mp named
      cases inEnvironment : environment s with
      | some v => exact .environment unnamed ((env s v).mp inEnvironment)
      | none =>
        have unset := env.eq_none_iff.mp inEnvironment
        cases inFile : envFile s with
        | some v => exact .envFile unnamed unset ((file s v).mp inFile)
        | none =>
          refine .default unnamed fun source => ?_
          cases source with
          | environment => exact unset
          | envFile => exact file.eq_none_iff.mp inFile

theorem atop_eq_none_iff {higher lower : Layer} {s : Setting} :
    (higher.atop lower) s = none ↔ (higher s).or (lower s) = none := by
  unfold atop
  cases higher s <;> cases lower s <;> simp

theorem settled_firstOf (s : Setting) :
    Config.settled s ((((ofParameters ps).atop environment).atop envFile) s) =
      Config.settled s (firstOf ps environment envFile s) := by
  have upper := Config.settled_atop s (ofParameters ps) environment
  have absent := @atop_eq_none_iff (ofParameters ps) environment s
  rw [Config.settled_atop, firstOf, ← Option.or_assoc]
  cases joined : ((ofParameters ps).atop environment) s with
  | none => rw [absent.mp joined]
  | some v =>
    rw [joined] at upper absent
    obtain ⟨v', first⟩ := Option.ne_none_iff_exists'.mp fun none => nomatch absent.mpr none
    rw [first] at upper ⊢
    exact upper

end Layer

namespace Config

variable {w : Surroundings} {ps : Parameters}

theorem build_of_readable (ps : Parameters) (apart : ∀ source, (w.variablesOf source).Apart)
    (read : ∀ source s, ¬ (w.variablesOf source).Unreadable s) :
    ∃ layer raw : Layer, build w ps = (ofLayer layer).mapError .invalid ∧
      (∀ s given?, Raw w ps s given? ↔ given? = raw s) ∧
      ∀ s, settled s (layer s) = settled s (raw s) := by
  obtain ⟨environment, foundE, env⟩ :=
    Layer.ofVariables_of_readable (apart .environment) (read .environment)
  obtain ⟨envFile, foundF, file⟩ := Layer.ofVariables_of_readable (apart .envFile) (read .envFile)
  refine ⟨_, _, ?_, Layer.raw_iff env file, Layer.settled_firstOf⟩
  unfold build
  rw [w.environmentLayer_eq, foundE, w.envFileLayer_eq, foundF]
  rfl

theorem build_of_unreadable (ps : Parameters) (apart : ∀ source, (w.variablesOf source).Apart)
    (unread : ∃ source s, (w.variablesOf source).Unreadable s) :
    ∃ source s, w.StoppedBy s source ∧ build w ps = .error (.unreadable s source) := by
  unfold build
  rw [w.environmentLayer_eq, w.envFileLayer_eq]
  by_cases inEnvironment : ∃ s, (w.variablesOf .environment).Unreadable s
  · obtain ⟨s, unread⟩ := inEnvironment
    obtain ⟨t, first, found⟩ := Layer.ofVariables_of_unreadable (apart .environment) unread
    refine ⟨.environment, t, first, ?_⟩
    rw [found]
    rfl
  · have read := not_exists.mp inEnvironment
    obtain ⟨environment, foundE, _⟩ := Layer.ofVariables_of_readable (apart .environment) read
    obtain ⟨source, s, unread⟩ := unread
    cases source with
    | environment => exact absurd unread (read s)
    | envFile =>
      obtain ⟨t, first, found⟩ := Layer.ofVariables_of_unreadable (apart .envFile) unread
      refine ⟨.envFile, t, ⟨read, first⟩, ?_⟩
      rw [foundE, found]
      rfl

theorem build_eq_ok_iff {c : Config} : build w ps = .ok c ↔
    ∃ environment envFile, w.environmentLayer = .ok environment ∧ w.envFileLayer = .ok envFile ∧
      ∀ s, resolve s (Layer.firstOf ps environment envFile s) = .ok (c.get s) := by
  unfold build
  simp only [bind_eq_ok_iff, mapError_eq_ok_iff, ofLayer_eq_ok_iff, ← settled_eq_ok_iff,
    Layer.settled_firstOf, exists_and_left]

theorem accepts_of_build {c : Config} (built : build w ps = .ok c) (s : Setting) :
    s.kind.Accepts (c.get s) := by
  obtain ⟨_, _, _, _, holds⟩ := build_eq_ok_iff.mp built
  exact accepts_of_resolve (holds s)

theorem natural_of_build {c : Config} (built : build w ps = .ok c) : c.Natural :=
  fun s => (accepts_of_build built s).natural

theorem lookup?_of_snakeCase (c : Config) {s : Setting} {n : String} (h : snakeCase n = s.name) :
    c.lookup? n = some (c.value s) := by
  rw [lookup?, Setting.spelled?, h, Setting.named?_name]
  rfl

theorem lookup?_eq_none (c : Config) {n : String} (h : ∀ s : Setting, snakeCase n ≠ s.name) :
    c.lookup? n = none := by
  rw [lookup?, Option.map_eq_none_iff, Setting.spelled?]
  cases found : Setting.named? (snakeCase n) with
  | none => rfl
  | some s => exact absurd (Setting.name_of_named? found).symm (h s)

/-- The first list of the lower layers that cannot be read stops the building. Where all are read,
a configuration is built exactly if every value that counts is accepted; it holds these values, and
else what is wrong with them is said, setting by setting. -/
theorem build_layered (w : Surroundings) (ps : Parameters)
    (apart : ∀ source, (w.variablesOf source).Apart) :
    ((∃ source s, (w.variablesOf source).Unreadable s) →
      ∃ source s, w.StoppedBy s source ∧ build w ps = .error (.unreadable s source)) ∧
    ((∀ source s, ¬ (w.variablesOf source).Unreadable s) →
      ∃ raw : Layer, (∀ s given?, Raw w ps s given? ↔ given? = raw s) ∧
        ((∃ c, build w ps = .ok c) ↔ ∀ s, ∃ x, resolve s (raw s) = .ok x) ∧
        (∀ c, build w ps = .ok c → ∀ s, resolve s (raw s) = .ok (c.get s)) ∧
        ∀ fault, build w ps = .error fault → ∃ vs, fault = .invalid vs ∧
          vs.map Violation.complaint = Setting.all.flatMap fun s => complaints s (raw s)) ∧
    ∀ (c : Config) (n : String),
      (∀ s : Setting, snakeCase n = s.name → c.lookup? n = some (c.value s)) ∧
        ((∀ s : Setting, snakeCase n ≠ s.name) → c.lookup? n = none) := by
  refine ⟨build_of_unreadable ps apart, fun read => ?_, fun c n => ?_⟩
  · obtain ⟨layer, raw, built, counts, same⟩ := build_of_readable ps apart read
    have accepted {s : Setting} {x : s.kind.Carrier} :
        resolve s (layer s) = .ok x ↔ resolve s (raw s) = .ok x := by
      rw [← settled_eq_ok_iff, same s, settled_eq_ok_iff]
    have ok_iff (c : Config) : build w ps = .ok c ↔ ∀ s, resolve s (raw s) = .ok (c.get s) := by
      rw [built, mapError_eq_ok_iff, ofLayer_eq_ok_iff]
      exact forall_congr' fun s => accepted
    refine ⟨raw, counts, ?_, fun c => (ok_iff c).mp, fun fault failed => ?_⟩
    · constructor
      · rintro ⟨c, ok⟩ s
        exact ⟨_, (ok_iff c).mp ok s⟩
      · intro valid
        choose value holds using valid
        exact ⟨⟨value⟩, (ok_iff ⟨value⟩).mpr holds⟩
    · rw [built] at failed
      cases found : ofLayer layer with
      | ok c =>
        rw [found] at failed
        contradiction
      | error vs =>
        rw [found] at failed
        refine ⟨vs, (Except.error.inj failed).symm, ?_⟩
        rw [ofLayer_eq_error found, List.map_flatMap]
        simp only [map_complaint_violationsOf, complaints, same]
  · exact ⟨fun s => c.lookup?_of_snakeCase, c.lookup?_eq_none⟩

def layeredParameters : Parameters := ⟨[("iterationCount", .integer 3)]⟩

def layeredSurroundings : Surroundings :=
  ⟨⟨[("Bruno_Execute_Tags", "smoke"), ("BRUNO_EXECUTE_ITERATION_COUNT", "4")]⟩,
    some "BRUNO_EXECUTE_TAGS=slow\nBRUNO_EXECUTE_DELAY=7\n"⟩

def layered : Layer
  | .iterationCount => some (.integer 3)
  | .tags => some (.string "smoke")
  | .delay => some (.string "7")
  | _ => none

theorem variablesOf_layered : layeredSurroundings.variablesOf .envFile =
    [("BRUNO_EXECUTE_TAGS", some "slow"), ("BRUNO_EXECUTE_DELAY", some "7")] := by
  with_unfolding_all rfl

theorem names_layered (source : Source) :
    (layeredSurroundings.variablesOf source).map (fun v => smallCase v.1) =
      [Setting.tags.environmentName,
        if source = .environment then Setting.iterationCount.environmentName
        else Setting.delay.environmentName] := by
  cases source with
  | environment => decide
  | envFile =>
    rw [variablesOf_layered]
    decide

theorem raw_layered (s : Setting) : Raw layeredSurroundings layeredParameters s (layered s) := by
  have unnamed (other : s ≠ .iterationCount) : ¬ layeredParameters.Names s := by
    rintro ⟨p, member, named⟩
    obtain rfl := List.mem_singleton.mp member
    have own : snakeCase "iterationCount" = Setting.iterationCount.name := by decide
    exact other (Setting.name_injective (named.symm.trans own))
  cases s with
  | iterationCount =>
    exact .parameter ⟨[], "iterationCount", [], rfl, by decide, List.forall_mem_nil _⟩
  | tags =>
    have given : (layeredSurroundings.variablesOf .environment).Give .tags "smoke" :=
      ⟨"Bruno_Execute_Tags", by decide, List.mem_cons_self⟩
    exact .environment (unnamed (by decide)) ⟨"smoke", given, .plain (by decide)⟩
  | delay =>
    refine .envFile (unnamed (by decide)) ?_ ⟨"7", ?_, .plain (by decide)⟩
    · rintro v ⟨text, given, -⟩
      have name := Variables.mem_names_of_give given
      rw [names_layered] at name
      exact absurd name (by decide)
    · rw [variablesOf_layered]
      exact ⟨"BRUNO_EXECUTE_DELAY", by decide, List.mem_cons_of_mem _ List.mem_cons_self⟩
  | _ =>
    refine .default (unnamed (by decide)) ?_
    rintro source v ⟨text, given, -⟩
    have name := Variables.mem_names_of_give given
    rw [names_layered] at name
    cases source <;> exact absurd name (by decide)

/-- A list that cannot be read stops the building though a parameter decides; and a configuration
comes of all four layers. -/
theorem build_layered_of_overridden_list :
    let w : Surroundings :=
      ⟨⟨[("Bruno_Execute_Tags", "smoke")]⟩, some "BRUNO_EXECUTE_ENV_VARS=\n"⟩
    let ps : Parameters := ⟨[("envVars", .array [])]⟩
    let c := ((standard.set .iterationCount (3 : Int)).set .tags "smoke").set .delay (7 : Int)
    ((∀ source, (w.variablesOf source).Apart) ∧ (w.variablesOf .envFile).Unreadable .envVars ∧
        ∃ source s, w.StoppedBy s source ∧ build w ps = .error (.unreadable s source)) ∧
      (∀ source, (layeredSurroundings.variablesOf source).Apart) ∧
        (∀ source s, ¬ (layeredSurroundings.variablesOf source).Unreadable s) ∧
        build layeredSurroundings layeredParameters = .ok c := by
  intro w ps c
  have file : w.variablesOf .envFile = [("BRUNO_EXECUTE_ENV_VARS", some "")] := by
    with_unfolding_all rfl
  have apart : ∀ source, (w.variablesOf source).Apart := by
    intro source
    cases source with
    | environment => exact List.nodup_singleton _
    | envFile =>
      rw [file]
      exact List.nodup_singleton _
  have unread : (w.variablesOf .envFile).Unreadable .envVars := by
    have named : smallCase "BRUNO_EXECUTE_ENV_VARS" = Setting.envVars.environmentName := by decide
    have empty : Json.read? "" = none := by with_unfolding_all rfl
    rw [file]
    exact ⟨rfl, "", ⟨_, named, List.mem_singleton_self _⟩, empty⟩
  refine ⟨⟨apart, unread, (build_layered w ps apart).1 ⟨_, _, unread⟩⟩, ?_⟩
  have apart' : ∀ source, (layeredSurroundings.variablesOf source).Apart := by
    intro source
    rw [Variables.Apart, names_layered]
    cases source <;> decide
  have read : ∀ source s, ¬ (layeredSurroundings.variablesOf source).Unreadable s := by
    rintro source s ⟨list, text, given, -⟩
    have name := Variables.mem_names_of_give given
    rw [names_layered] at name
    cases s with
    | runOptions | envVars | skipHeaders => cases source <;> exact absurd name (by decide)
    | _ => cases list
  obtain ⟨raw, decides, valid, holds, -⟩ := (build_layered _ layeredParameters apart').2.1 read
  have same : raw = layered := funext fun s => ((decides s _).mp (raw_layered s)).symm
  have value : ∀ s, resolve s (layered s) = .ok (c.get s) := by
    intro s
    cases s <;> rfl
  obtain ⟨c', built⟩ := valid.mpr fun s => ⟨_, same ▸ value s⟩
  have equal : c' = c := Config.ext fun s => by
    have held := holds c' built s
    rw [same, value s] at held
    exact (Except.ok.inj held).symm
  rw [equal] at built
  exact ⟨apart', read, built⟩

end Config

end CollectionRun
