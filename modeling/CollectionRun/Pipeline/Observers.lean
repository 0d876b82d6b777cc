import CollectionRun.Pipeline.Run
import CollectionRun.World

namespace CollectionRun.Observer

def reporting : Observer World where
  before stage := Act.change fun w => { w with report := w.report.record stage .inProgress }
  after stage result := do
    Act.change fun w => { w with report := w.report.record stage result.status }
    return result
  failed stage _ := Act.change fun w => { w with report := w.report.record stage .failed }

def withTimed (stage : String) (timed : List String) : List String :=
  if timed.contains stage then timed else timed ++ [stage]

def timing : Observer World where
  before stage := Act.note [.stageStarted stage]
  after stage result := do
    Act.change fun w => { w with timed := withTimed stage w.timed }
    Act.note [.stageFinished stage result.status]
    return result
  failed stage _ := Act.change fun w => { w with timed := withTimed stage w.timed }

def idle : Observer World := {}

def writeDown (note : Note) : Act World Unit :=
  Act.change fun w => { w with notes := w.notes ++ [note] }

structure Weakness where
  before : Option String := none
  after : Option String := none
  failed : Option String := none
  deriving Repr

def failAt (label what stage : String) (weakAt : Option String) : Act World Unit :=
  if weakAt = some stage then throw ⟨.runtime s!"{label} failed {what} {stage}", []⟩ else return

/-- Writes down what it is told, and fails afterwards where it is weak. -/
def recording (label : String) (weakness : Weakness := {}) : Observer World where
  before stage := do
    writeDown (.before label stage)
    failAt label "before" stage weakness.before
  after stage result := do
    writeDown (.after label stage result)
    failAt label "after" stage weakness.after
    return result
  failed stage failure := do
    writeDown (.failed label stage failure)
    failAt label "error" stage weakness.failed

end CollectionRun.Observer
