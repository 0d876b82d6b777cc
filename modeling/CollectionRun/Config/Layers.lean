import CollectionRun.Config.Basic
import CollectionRun.Config.Validation
import CollectionRun.EnvFile.Values
import CollectionRun.Json.Reader

/-! Parameters, the environment, an environment file and the defaults: the first of these that
gives a setting a value decides. A list of the two environment layers that cannot be read stops
the building even where a higher layer decides. -/

namespace CollectionRun

abbrev Parameters := OrderedMap String Json.Value

/-- Where a run takes its settings from besides its parameters. -/
structure Surroundings where
  environment : Environment := .empty
  envFile : Option String := none
  deriving Repr

abbrev Layer := Setting → Option Json.Value

inductive Source where
  | environment
  | envFile
  deriving DecidableEq, Repr

def Source.name : Source → String
  | environment => "EnvSettingsSource"
  | envFile => "DotEnvSettingsSource"

inductive BuildFault where
  | unreadable (setting : Setting) (source : Source)
  | invalid (violations : List Violation)
  deriving Repr

namespace Layer

def ofParameters (ps : Parameters) : Layer := fun s =>
  (ps.entries.reverse.find? fun p => Spelling.snakeCase p.1 = s.name).map (·.2)

/-- The text under the name of a setting, any case of the name being as good as another; of two
names that differ in case only, the later decides. -/
def textOf (given : List (String × Option String)) (s : Setting) : Option String :=
  match given.reverse.find? fun v => Spelling.smallCase v.1 = s.environmentName with
  | some (_, text?) => text?
  | none => none

def ofText? (s : Setting) (text : String) : Option (Option Json.Value) :=
  if s.kind = .words then
    match Json.read? text with
    | some .null => some none
    | some v => some (some v)
    | none => none
  else some (some (.string text))

def ofVariables (vars : List (String × Option String)) : Except Setting Layer :=
  let given (s : Setting) : Option (Option Json.Value) :=
    match textOf vars s with
    | some text => ofText? s text
    | none => some none
  match Setting.all.find? fun s => (given s).isNone with
  | some s => .error s
  | none => .ok fun s => (given s).join

/-- The higher layer decides; where both give objects, these are joined. -/
def atop (higher lower : Layer) : Layer := fun s =>
  match higher s, lower s with
  | some high, some low => some (low.overlay high)
  | some high, none => some high
  | none, low => low

end Layer

namespace Surroundings

def environmentLayer (w : Surroundings) : Except BuildFault Layer :=
  (Layer.ofVariables (w.environment.entries.map fun (n, v) => (n, some v))).mapError
    (.unreadable · .environment)

def envFileLayer (w : Surroundings) : Except BuildFault Layer :=
  match w.envFile with
  | none => .ok fun _ => none
  | some text =>
    (Layer.ofVariables (EnvFile.values text w.environment).entries).mapError
      (.unreadable · .envFile)

end Surroundings

namespace Config

def resolve (s : Setting) (given? : Option Json.Value) : Except (List Violation) s.kind.Carrier :=
  match given? with
  | some v => s.read v
  | none => .ok s.default

def violationsOf (layer : Layer) (s : Setting) : List Violation :=
  match resolve s (layer s) with
  | .ok _ => []
  | .error vs => vs

def ofLayer (layer : Layer) : Except (List Violation) Config :=
  match Setting.all.flatMap (violationsOf layer) with
  | [] => .ok ⟨fun s => (resolve s (layer s)).toOption.getD s.default⟩
  | vs => .error vs

def build (w : Surroundings) (ps : Parameters) : Except BuildFault Config := do
  let environment ← w.environmentLayer
  let envFile ← w.envFileLayer
  (ofLayer (((Layer.ofParameters ps).atop environment).atop envFile)).mapError .invalid

def lookup? (c : Config) (spelling : String) : Option Json.Value :=
  (Setting.spelled? spelling).map c.value

end Config

end CollectionRun
