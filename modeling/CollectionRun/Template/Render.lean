import CollectionRun.Config.Basic
import CollectionRun.Template.Parse
import CollectionRun.Text.Characters

/-! Whether a step is allowed depends on the types of the values only, but for integers that are
too long to be printed. -/

namespace CollectionRun.Template

structure Context where
  displayName : String := ""
  collection : String := ""
  config : Config
  getenv : String → Option String

inductive Value where
  | text (s : String)
  | integer (n : Int)
  | flag (b : Bool)
  | words (texts : List String)
  | config (c : Config)
  | context (c : Context)

namespace Value

def typeName : Value → String
  | text _ => "str"
  | integer _ => "int"
  | flag _ => "bool"
  | words _ => "list"
  | config _ => "StepConfig"
  | context _ => "TemplateContext"

def ofKind : (k : Kind) → k.Carrier → Value
  | .text, v => .text v
  | .flag, v => .flag v
  | .count, v => .integer v
  | .sandbox, v => .text v
  | .words, v => .words v

def field? : Value → String → Option Value
  | context c, name =>
    if name = "CollectionDisplayName" then some (.text c.displayName)
    else if name = "BrunoCollection" then some (.text c.collection)
    else if name = "Config" then some (.config c.config)
    else none
  | config c, name => (Setting.spelled? name).map fun s => ofKind s.kind (c.get s)
  | _, _ => none

def print : Value → Except (Obstacle RenderProblem) String
  | text s => .ok s
  | integer n =>
    match Text.decimal? n with
    | some s => .ok s
    | none => .error .overlong
  | flag b => .ok (if b then "true" else "false")
  | words texts => .ok ("[" ++ " ".intercalate texts ++ "]")
  | v@(config _) => .error (.fault (.unprintable v.typeName))
  | v@(context _) => .error (.fault (.unprintable v.typeName))

def follow (v : Value) : List String → Except RenderProblem Value
  | [] => .ok v
  | name :: names =>
    match v.field? name with
    | some next => next.follow names
    | none => .error (.noField name v.typeName)

end Value

/-- The value of a function; the number of arguments is checked before their types. -/
def Function.call (f : Function) (c : Context) (arguments : List Value) :
    Except RenderProblem Value :=
  match f, arguments with
  | .getenv, [.text name] => .ok (.text ((c.getenv name).getD ""))
  | .getenv, [v] => .error (.notText v.typeName)
  | f, vs => .error (.argumentCount f vs.length)

def Operand.eval (c : Context) : Operand → Except RenderProblem Value
  | .literal value _ => .ok (.text value)
  | .field names => (Value.context c).follow names
  | .function f => f.call c []

def evalAll (c : Context) : List Operand → Except RenderProblem (List Value)
  | [] => .ok []
  | o :: rest => do
    let v ← o.eval c
    let vs ← evalAll c rest
    return v :: vs

def Command.eval (c : Context) (piped? : Option Value) (command : Command) :
    Except RenderProblem Value :=
  match command.head with
  | .function f => do f.call c ((← evalAll c command.arguments) ++ piped?.toList)
  | head =>
    if command.arguments.isEmpty && piped?.isNone then head.eval c
    else .error (.argumentForValue head.text)

def evalFrom (c : Context) (v : Value) : List Command → Except RenderProblem Value
  | [] => .ok v
  | command :: rest => do evalFrom c (← command.eval c (some v)) rest

def Pipeline.eval (c : Context) (p : Pipeline) : Except RenderProblem Value := do
  evalFrom c (← p.first.eval c none) p.later

def Pipeline.print (c : Context) (p : Pipeline) : Except (Obstacle RenderProblem) String := do
  (← (p.eval c).mapError .fault).print

def Node.render (name : String) (c : Context) : Node → Except (Obstacle RenderFault) String
  | .text s => .ok s
  | .action a => (a.pipeline.print c).mapError (·.map (⟨name, a.line, ·⟩))

def renderAll (name : String) (c : Context) : List Node → Except (Obstacle RenderFault) String
  | [] => .ok ""
  | n :: rest => do
    let s ← n.render name c
    let more ← renderAll name c rest
    return s ++ more

end CollectionRun.Template

namespace CollectionRun

def Template.render (t : Template) (c : Template.Context) :
    Except (Template.Obstacle Template.RenderFault) String :=
  Template.renderAll t.name c t.nodes

end CollectionRun
