import CollectionRun.Failure

namespace CollectionRun

inductive Level where
  | debug
  | info
  | warning
  | error
  deriving DecidableEq, Repr

namespace Level

def name : Level → String
  | debug => "DEBUG"
  | info => "INFO"
  | warning => "WARNING"
  | error => "ERROR"

def rank : Level → Nat
  | debug => 0
  | info => 1
  | warning => 2
  | error => 3

end Level

inductive Event where
  | commandStarted (executable : String) (arguments : List String)
  | outputLine (line : String) (executable : String)
  | errorLine (line : String) (executable : String)
  | commandFailed (executable : String) (category : Category)
  | keysMissing (stage : String) (keys : List String)
  | stageRaised (stage : String)
  | stageStarted (stage : String)
  | stageFinished (stage : String) (status : Status)
  | optionsResolved (options : List String)
  | failurePassed (error : String) (category : Category)
  | runFailed (category : Category) (error : String)
  | statementSkipped (line : Nat)
  | startFailed (error : String)
  | finished (succeeded : Bool)
  deriving DecidableEq, Repr

namespace Event

def level : Event → Level
  | commandFailed _ _ | stageRaised _ | stageStarted _ | optionsResolved _ => .debug
  | commandStarted _ _ | outputLine _ _ | stageFinished _ _ | finished _ => .info
  | errorLine _ _ | keysMissing _ _ | failurePassed _ _ | statementSkipped _ => .warning
  | runFailed _ _ | startFailed _ => .error

def origin : Event → String
  | commandStarted _ _ | outputLine _ _ | errorLine _ _ | commandFailed _ _ =>
    "bruno_execute.runner"
  | keysMissing _ _ | stageRaised _ => "bruno_execute.pipeline"
  | stageStarted _ | stageFinished _ _ => "bruno_execute.callbacks"
  | optionsResolved _ => "bruno_execute.options"
  | failurePassed _ _ => "bruno_execute.steps"
  | runFailed _ _ => "bruno_execute.execute"
  | startFailed _ | finished _ => "bruno_execute.main"
  | statementSkipped _ => "dotenv.main"

def message : Event → String
  | commandStarted executable arguments =>
    s!"Running command: {executable} " ++ " ".intercalate arguments
  | outputLine line _ => line
  | errorLine line _ => line
  | commandFailed _ _ => "Command failed"
  | keysMissing _ _ => "Missing required keys"
  | stageRaised _ => "Stage raised"
  | stageStarted _ => "Starting stage"
  | stageFinished _ _ => "Finished stage"
  | optionsResolved options => "Resolved run options: " ++ Text.quotedList options
  | failurePassed _ _ => "Bruno tests failed, but failOnError is set to false"
  | runFailed _ _ => "step execution failed"
  | statementSkipped line => s!"python-dotenv could not parse statement starting at line {line}"
  | startFailed error => s!"step execution failed: {error}"
  | finished _ => "Step finished"

def facts : Event → List (String × Json.Value)
  | outputLine _ executable => [("executable", .string executable)]
  | errorLine _ executable => [("executable", .string executable)]
  | commandFailed executable category =>
    [("executable", .string executable), ("category", .string category.name)]
  | keysMissing stage keys => [("step", .string stage), ("missing", .strings keys)]
  | stageRaised stage => [("step", .string stage)]
  | stageStarted stage => [("step", .string stage)]
  | stageFinished stage status => [("step", .string stage), ("status", .string status.name)]
  | failurePassed error category =>
    [("error", .string error), ("category", .string category.name)]
  | runFailed category error =>
    [("category", .string category.name), ("error", .string error)]
  | finished succeeded => [("fields", .object [("bruno", .bool succeeded)])]
  | _ => []

def line (time : String) (e : Event) : String :=
  s!"{time} {e.level.name} {e.origin} - {e.message}\n"

end Event

structure Journal (σ : Type) where
  events : List Event := []
  world : σ

/-- An act notes events, changes the world, and may end in a failure; what it did before the
failure stays done. -/
abbrev Act (σ : Type) := ExceptT Failure (StateM (Journal σ))

namespace Act

variable {σ α : Type}

def play (a : Act σ α) (j : Journal σ) : Except Failure α × Journal σ := a.run.run j

def note (events : List Event) : Act σ Unit :=
  modify fun j => { j with events := j.events ++ events }

def change (f : σ → σ) : Act σ Unit := modify fun j => { j with world := f j.world }

def world : Act σ σ := do return (← get).world

def outcome (a : Act σ α) : Act σ (Except Failure α) := ExceptT.lift a.run

end Act

end CollectionRun
