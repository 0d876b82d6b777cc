import CollectionRun.Journal
import CollectionRun.Text.Lines
import CollectionRun.Text.Utf8

namespace CollectionRun

inductive Chunk where
  | octets (bs : List UInt8)
  | fault (text : String)
  deriving DecidableEq, Repr

inductive Script where
  | refuses (text : String)
  | plays (stdout stderr : List Chunk) (exitCode : Int)
  deriving DecidableEq, Repr

namespace Script

def silent : Script := .plays [] [] 0

end Script

structure Forwarded where
  lines : List String
  fault : Option String := none
  deriving DecidableEq, Repr

namespace Forwarded

/-- The text of a line: ill-formed runs are replaced, carriage returns at its end dropped. -/
def lineText (octets : List UInt8) : String :=
  String.ofList (((Text.Utf8.decodeLossy octets).reverse.dropWhile (· == '\r')).reverse)

/-- The lines of the chunks after what `buffer` holds. A line that a fault interrupts is not
forwarded. -/
def ofChunks (buffer : Text.LineBuffer) : List Chunk → Forwarded
  | [] => ⟨buffer.flush.map lineText, none⟩
  | .fault text :: _ => ⟨[], some text⟩
  | .octets bs :: rest =>
    let (lines, buffer) := buffer.push bs
    let later := ofChunks buffer rest
    ⟨lines.map lineText ++ later.lines, later.fault⟩

def ofStream (chunks : List Chunk) : Forwarded := ofChunks {} chunks

end Forwarded

/-! A runner forwards what a program writes, standard output before standard error, and puts a
failed program down to a category by its output. A read that fails ends the program and is no
failure of the command. -/

/-- The patterns that decide categories, and the environment of the programs; without one they
inherit that of the runner. -/
structure Runner where
  patterns : Patterns := .standard
  environment : Option Environment := none
  deriving Repr

structure Performance where
  events : List Event
  failure : Option Failure := none
  killed : Bool := false
  deriving Repr

namespace Runner

def getenv (r : Runner) (inherited : Environment) (name : String) : String :=
  (r.environment.getD inherited).lookup name

def perform (r : Runner) (executable : String) (arguments : List String) :
    Script → Performance
  | .refuses text =>
    { events := [.commandStarted executable arguments],
      failure := some ⟨.command executable arguments none .undefined, [.system text]⟩ }
  | .plays stdout stderr exitCode =>
    let out := Forwarded.ofStream stdout
    let err := Forwarded.ofStream stderr
    let events := .commandStarted executable arguments ::
      out.lines.map (Event.outputLine · executable) ++ err.lines.map (Event.errorLine · executable)
    match out.fault.or err.fault with
    | some text => { events, failure := some ⟨.system text, []⟩, killed := true }
    | none =>
      if exitCode = 0 then { events }
      else
        let category := r.patterns.categorize (out.lines ++ err.lines)
        { events := events ++ [.commandFailed executable category],
          failure := some ⟨.command executable arguments (some exitCode) category, []⟩ }

end Runner

end CollectionRun
