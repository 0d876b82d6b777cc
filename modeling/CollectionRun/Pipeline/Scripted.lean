import CollectionRun.Pipeline.Run

/-! Stages that play a given part: they fail with a given failure, or leave given entries and
copies of entries that they find. -/

namespace CollectionRun

structure Part where
  failure : Option Failure := none
  status : Status := .completed
  data : Entries := .empty
  copies : List (String × String) := []
  error : Option String := none

namespace Part

variable {σ : Type}

def leaves (p : Part) (entries : Entries) : Entries :=
  p.copies.foldl (fun data (key, source) =>
    data.put key ((entries.get? source).getD (.json .null))) p.data

def play (p : Part) (_ : Config) (entries : Entries) : Act σ StageResult :=
  match p.failure with
  | some failure => throw failure
  | none => return { status := p.status, data := p.leaves entries, error := p.error }

end Part

namespace Stage

def scriptedLabel : String := "ScriptedStep"

def scripted {σ : Type} (name? : Option String) (p : Part) : Stage σ where
  label := match name? with
    | some name => if name.isEmpty then scriptedLabel else name
    | none => scriptedLabel
  process := reading p.play

end Stage

end CollectionRun
