import CollectionRun.OrderedMap
import CollectionRun.Text.Search

namespace CollectionRun

inductive Category where
  | undefined
  | configuration
  | infrastructure
  | test
  deriving DecidableEq, Repr

namespace Category

def name : Category → String
  | .undefined => "undefined"
  | .configuration => "configuration"
  | .infrastructure => "infrastructure"
  | .test => "test"

def all : List Category := [.undefined, .configuration, .infrastructure, .test]

def named? (s : String) : Option Category := all.find? (·.name = s)

end Category

abbrev Patterns := OrderedMap Category (List String)

namespace Patterns

def standard : Patterns :=
  ⟨[(.configuration, ["ENOENT: no such file or directory", "collection not found"]),
    (.test, ["AssertionError", "TypeError", "test failed"])]⟩

def matching? (patterns : Patterns) (line : String) : Option Category :=
  patterns.entries.findSome? fun (category, ps) =>
    if ps.any (Text.holds line) then some category else none

def categorize (patterns : Patterns) (lines : List String) : Category :=
  (lines.findSome? patterns.matching?).getD .undefined

end Patterns

inductive Status where
  | inProgress
  | completed
  | failed
  deriving DecidableEq, Repr

namespace Status

def name : Status → String
  | inProgress => "in_progress"
  | completed => "completed"
  | failed => "failed"

def named? (s : String) : Option Status := [inProgress, completed, failed].find? (·.name = s)

end Status

structure Report where
  succeeded : Bool := false
  category : Category := .undefined
  stages : OrderedMap String Status := .empty
  deriving DecidableEq, Repr

namespace Report

def record (r : Report) (stage : String) (status : Status) : Report :=
  { r with stages := r.stages.put stage status }

end Report

/-- The outcome of a run; `error` has the text of a failure that was let pass. -/
structure RunResult where
  success : Bool
  error : Option String := none
  deriving DecidableEq, Repr

end CollectionRun
