import CollectionRun.Json.StringLiteral
import CollectionRun.Template.Lexeme
import CollectionRun.Template.Segment

namespace CollectionRun.Template

open Text

/-- An action body: whether it trims the text before and after it, and its content without marks
and blanks around it. -/
structure Body where
  trimsBefore : Bool
  content : List Char
  trimsAfter : Bool
  deriving DecidableEq, Repr

namespace Body

/-- A dash in front counts when nothing or a blank follows it. -/
def dropFrontMark (cs : List Char) : Bool × List Char :=
  match cs with
  | ['-'] => (true, [])
  | '-' :: c :: rest => if isBlank c then (true, c :: rest) else (false, cs)
  | _ => (false, cs)

/-- A dash at the end counts when a blank stands before it. -/
def dropBackMark (cs : List Char) : List Char × Bool :=
  match cs.reverse with
  | '-' :: c :: rest => if isBlank c then ((c :: rest).reverse, true) else (cs, false)
  | _ => (cs, false)

def ofChars (cs : List Char) : Body :=
  let front := dropFrontMark cs
  let back := dropBackMark front.2
  ⟨front.1, trim back.1, back.2⟩

def opensComment (cs : List Char) : Bool := ['/', '*'].isPrefixOf cs

def closesComment (cs : List Char) : Bool := ['*', '/'].isSuffixOf cs

end Body

namespace Lexeme

def operand : Lexeme → Except SyntaxProblem Operand
  | .quoted spelling =>
    match Json.StringLiteral.decode? spelling with
    | some value => .ok (.literal (String.ofList value) (String.ofList spelling))
    | none => .error (.badLiteral (String.ofList spelling))
  | .raw content =>
    .ok (.literal (String.ofList content) (String.ofList ('\x60' :: content ++ ['\x60'])))
  | .chain names => .ok (.field (names.map String.ofList))
  | .word name =>
    match Function.named? (String.ofList name) with
    | some f => .ok (.function f)
    | none => .error (.unknownFunction (String.ofList name))
  | .pipe => .error .missingBeforePipe
  | .unexpected c => .error (.unexpected c)

end Lexeme

namespace Pipeline

def ofLexemes : Option Command → List Lexeme → Except SyntaxProblem Pipeline
  | none, [] => .error .missingAfterPipe
  | some command, [] => .ok ⟨command, []⟩
  | none, .pipe :: _ => .error .missingBeforePipe
  | some command, .pipe :: rest => do
    let later ← ofLexemes none rest
    return ⟨command, later.commands⟩
  | none, l :: rest => do ofLexemes (some ⟨← l.operand, []⟩) rest
  | some command, l :: rest => do
    let operand ← l.operand
    ofLexemes (some { command with arguments := command.arguments ++ [operand] }) rest

def read (content : List Char) : Except SyntaxProblem Pipeline :=
  if content.isEmpty then .error .missingValue else ofLexemes none (lexemes content)

end Pipeline

def Body.pipeline? (b : Body) : Except SyntaxProblem (Option Pipeline) :=
  if Body.opensComment b.content then
    if Body.closesComment b.content then .ok none else .error .unclosedComment
  else (Pipeline.read b.content).map some

def trimsBefore : List Segment → Bool
  | .body cs _ :: _ => (Body.ofChars cs).trimsBefore
  | _ => false

def trimmed (afterAction beforeAction : Bool) (cs : List Char) : List Char :=
  let cs := if afterAction then trimStart cs else cs
  if beforeAction then trimEnd cs else cs

def textNode (cs : List Char) : List Node :=
  if cs.isEmpty then [] else [.text (String.ofList cs)]

/-- The nodes of the segments; `afterAction` tells whether an action before them trims. -/
def nodesOf (name : String) (afterAction : Bool) : List Segment → Except SyntaxFault (List Node)
  | [] => .ok []
  | .unclosed line :: _ => .error ⟨name, line, .unclosedAction⟩
  | .text cs :: rest => do
    let nodes ← nodesOf name false rest
    return textNode (trimmed afterAction (trimsBefore rest) cs) ++ nodes
  | .body cs line :: rest => do
    let body := Body.ofChars cs
    let pipeline? ← body.pipeline?.mapError (⟨name, line, ·⟩)
    let nodes ← nodesOf name body.trimsAfter rest
    match pipeline? with
    | some pipeline => return .action ⟨pipeline, line⟩ :: nodes
    | none => return nodes

end CollectionRun.Template

namespace CollectionRun

def Template.read (source : String) (name : String := Template.standardName) :
    Except Template.SyntaxFault Template :=
  (Template.nodesOf name false (Template.segments source)).map fun nodes => ⟨name, nodes⟩

end CollectionRun
