import CollectionRun.Text.Quoted

/-! An action is a pipeline of commands; each command but the first is given the value of the one
before it as its last argument. -/

namespace CollectionRun.Template

inductive Function where
  | getenv
  deriving DecidableEq, Repr

namespace Function

def name : Function → String
  | getenv => "getenv"

def all : List Function := [getenv]

def named? (s : String) : Option Function := all.find? (·.name = s)

end Function

/-- An operand: a text with the spelling it was written in, the names of a field chain, or a
function. -/
inductive Operand where
  | literal (value spelling : String)
  | field (names : List String)
  | function (f : Function)
  deriving DecidableEq, Repr

def Operand.text : Operand → String
  | .literal _ spelling => spelling
  | .field [] => "."
  | .field names => String.join (names.map ("." ++ ·))
  | .function f => f.name

structure Command where
  head : Operand
  arguments : List Operand := []
  deriving DecidableEq, Repr

/-- Commands from left to right; there is at least one. -/
structure Pipeline where
  first : Command
  later : List Command := []
  deriving DecidableEq, Repr

namespace Pipeline

def commands (p : Pipeline) : List Command := p.first :: p.later

end Pipeline

def Command.operands (c : Command) : List Operand := c.head :: c.arguments

structure Action where
  pipeline : Pipeline
  line : Nat
  deriving DecidableEq, Repr

inductive Node where
  | text (s : String)
  | action (a : Action)
  deriving DecidableEq, Repr

inductive SyntaxProblem where
  | unclosedAction
  | unclosedComment
  | missingValue
  | unexpected (c : Char)
  | missingBeforePipe
  | missingAfterPipe
  | badLiteral (spelling : String)
  | unknownFunction (name : String)
  deriving DecidableEq, Repr

inductive RenderProblem where
  | argumentForValue (operand : String)
  | noField (field type : String)
  | argumentCount (f : Function) (count : Nat)
  | notText (type : String)
  | unprintable (type : String)
  deriving DecidableEq, Repr

namespace SyntaxProblem

def message : SyntaxProblem → String
  | unclosedAction => "unclosed action"
  | unclosedComment => "unclosed comment"
  | missingValue => "missing value for command"
  | unexpected c => s!"unexpected {Text.quoted c.toString} in command"
  | missingBeforePipe => "missing command before '|'"
  | missingAfterPipe => "missing command after '|'"
  | badLiteral spelling => s!"invalid quoted string {spelling}"
  | unknownFunction name => s!"function \"{name}\" not defined"

end SyntaxProblem

namespace RenderProblem

def message : RenderProblem → String
  | argumentForValue operand => s!"can't give argument to non-function {operand}"
  | noField field type => s!"can't evaluate field {field} in type {type}"
  | argumentCount f count => s!"wrong number of args for {f.name}: got {count}"
  | notText type => s!"wrong type for value; expected string; got {type}"
  | unprintable type => s!"can't print value of type {type}"

end RenderProblem

structure Fault (π : Type) where
  template : String
  line : Nat
  problem : π
  deriving DecidableEq, Repr

abbrev SyntaxFault := Fault SyntaxProblem

abbrev RenderFault := Fault RenderProblem

def Fault.text {π : Type} (describe : π → String) (f : Fault π) : String :=
  s!"template: {f.template}:{f.line}: {describe f.problem}"

def SyntaxFault.message (f : SyntaxFault) : String := f.text SyntaxProblem.message

def RenderFault.message (f : RenderFault) : String := f.text RenderProblem.message

/-- Why there is no text: for a fault, or for an integer that has too many digits. -/
inductive Obstacle (φ : Type) where
  | fault (f : φ)
  | overlong
  deriving DecidableEq, Repr

def Obstacle.map {φ ψ : Type} (g : φ → ψ) : Obstacle φ → Obstacle ψ
  | fault f => fault (g f)
  | overlong => overlong

def standardName : String := "template"

end CollectionRun.Template

namespace CollectionRun

structure Template where
  name : String
  nodes : List Template.Node
  deriving DecidableEq, Repr

end CollectionRun
