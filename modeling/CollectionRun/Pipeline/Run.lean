import CollectionRun.Pipeline.Stage

/-! The first stage that lacks an entry, fails or, when all observers have been told, says that
it failed ends the run; the entries of the stages completed before it stay. -/

namespace CollectionRun

structure Pipeline (σ : Type) where
  stages : List (Stage σ)
  observers : List (Observer σ) := []

structure Ending where
  entries : Entries
  failure : Option Failure := none
  deriving Repr

variable {σ : Type}

namespace Observer

/-- Tells observers one after the other, each of what the one before it has left; the first that
fails is the last that is told. -/
def tell {α : Type} (observers : List (Observer σ)) (what : Observer σ → α → Act σ α) (x : α) :
    Act σ α :=
  match observers with
  | [] => return x
  | o :: rest => do tell rest what (← what o x)

def tellBefore (observers : List (Observer σ)) (stage : String) : Act σ Unit :=
  tell observers (fun o _ => o.before stage) ()

def tellAfter (observers : List (Observer σ)) (stage : String) (result : StageResult) :
    Act σ StageResult :=
  tell observers (·.after stage) result

def tellFailed (observers : List (Observer σ)) (stage : String) (failure : Failure) : Act σ Unit :=
  tell observers (fun o _ => o.failed stage failure) ()

end Observer

namespace Stage

/-- Tells observers how a stage came out; of a halt nobody is told. -/
def settle (observers : List (Observer σ)) (s : Stage σ) :
    Except Failure StageResult → Act σ StageResult
  | .ok result => Observer.tellAfter observers s.name result
  | .error failure =>
    if failure.fault.isHalt then throw failure
    else do
      Act.note [.stageRaised s.name]
      Observer.tellFailed observers s.name failure
      throw failure

def attend (observers : List (Observer σ)) (c : Config) (s : Stage σ) (entries : Entries) :
    StateM (Journal σ) Work := do
  match ← (Observer.tellBefore observers s.name).run with
  | .error failure => return ⟨.error failure, entries⟩
  | .ok _ =>
    let work ← s.process c entries
    return { work with outcome := ← (s.settle observers work.outcome).run }

def advance (observers : List (Observer σ)) (c : Config) (s : Stage σ) (entries : Entries) :
    StateM (Journal σ) Ending := do
  let missing := s.missing entries
  if missing.isEmpty then
    let work ← s.attend observers c entries
    match work.outcome with
    | .error failure => return ⟨work.entries, some failure⟩
    | .ok result =>
      if result.status = .failed then
        return ⟨work.entries, some ⟨.stageFailed s.name result.error, []⟩⟩
      else return ⟨work.entries.update result.data, none⟩
  else
    let _ ← (Act.note [.keysMissing s.name missing]).run
    return ⟨entries, some ⟨.missingKeys s.name missing, []⟩⟩

end Stage

namespace Pipeline

def runFrom (observers : List (Observer σ)) (c : Config) (entries : Entries) :
    List (Stage σ) → StateM (Journal σ) Ending
  | [] => return { entries }
  | s :: rest => do
    let ending ← s.advance observers c entries
    match ending.failure with
    | none => runFrom observers c ending.entries rest
    | some _ => return ending

def run (p : Pipeline σ) (c : Config) (entries : Entries := .empty) :
    StateM (Journal σ) Ending :=
  runFrom p.observers c entries p.stages

end Pipeline

end CollectionRun
