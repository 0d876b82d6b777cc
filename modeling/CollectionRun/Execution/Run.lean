import CollectionRun.Flags
import CollectionRun.Pipeline.Observers
import CollectionRun.Pipeline.Stage
import CollectionRun.RunOptions
import CollectionRun.World

namespace CollectionRun.Execution

def installRoot : String := "~/.npm-global"

def binary : String := ".npm-global/bin/bru"

def optionsKey : String := "run_options"

def commandKey : String := "command"

def resultKey : String := "result"

variable {σ : Type}

/-- An act whose failure of the step is put behind `fault`; other failures pass. -/
def wrapping {α : Type} (fault : Fault) (a : Act σ α) : Act σ α := do
  match ← a.outcome with
  | .ok v => return v
  | .error failure =>
    match failure.fault with
    | .command _ _ _ _ => throw (.of fault failure)
    | _ => throw failure

def logVersions (m : Machine σ) : Stage σ :=
  .declared (.of (some "log_versions") [] []) fun _ _ => do
    wrapping (.toolVersion "node") (m.run "node" ["--version"])
    wrapping (.toolVersion "npm") (m.run "npm" ["--version"])
    return {}

def installWords (c : Config) : List String :=
  (Text.splitAt ' ' (c.get .installCommand : String).toList).map String.ofList ++
    ["--prefix=" ++ installRoot]

def install (m : Machine σ) : Stage σ :=
  .declared (.of (some "install") [] []) fun c _ => do
    wrapping .installation (m.run ((installWords c).headD "") (installWords c).tail)
    return {}

def resolveTemplate (env : Environment) : Stage σ :=
  .declared (.of (some "resolve_template") [] [optionsKey]) fun c _ => do
    let options ← RunOptions.resolving c (some ∘ env.lookup)
    return { data := .ofList [(optionsKey, .json (.strings options))] }

def itemsAt (entries : Entries) (key : String) (fault : String → Fault) :
    Except Failure (List Json.Value) :=
  match entries.get? key with
  | some entry =>
    match entry.items? with
    | some items => .ok items
    | none => .error ⟨fault entry.typeName, []⟩
  | none => .error ⟨.missingKeys key [key], []⟩

def textsFrom (index : Nat) : List Json.Value → Except Failure (List String)
  | [] => .ok []
  | .string s :: rest => do return s :: (← textsFrom (index + 1) rest)
  | v :: _ => .error ⟨.argumentNotText index v.typeName, []⟩

def buildFlags : Stage σ :=
  .declared (.of (some "build_flags") [optionsKey] [commandKey]) fun c entries => do
    let options ← itemsAt entries optionsKey .notItems
    let command := options ++ (← c.flagWords).map Json.Value.string
    return { data := .ofList [(commandKey, .json (.array command))] }

/-- The path of the client below `home`, or below the root if there is none. -/
def binaryPath (home : String) : String :=
  if home.isEmpty then "/" ++ binary
  else if home.toList.getLast? = some '/' then home ++ binary
  else home ++ "/" ++ binary

def completedWith (r : RunResult) : StageResult :=
  { data := .ofList [(resultKey, .result r)], error := r.error }

def failsOnError (c : Config) : Bool := c.get .failOnError

/-- Runs the client. A failed run counts as completed when the configuration lets failures
pass. -/
def execute (m : Machine σ) : Stage σ :=
  .declared (.of (some "execute") [commandKey] [resultKey]) fun c entries => do
    let command ← textsFrom 0 (← itemsAt entries commandKey .notArguments)
    match ← (m.run (binaryPath (m.getenv "HOME")) command).outcome with
    | .ok () => return completedWith ⟨true, none⟩
    | .error failure =>
      match failure.fault with
      | .command _ _ _ category =>
        if failsOnError c then throw (.of (.testsFailed category) failure)
        else
          Act.note [.failurePassed failure.message category]
          return completedWith ⟨true, some failure.message⟩
      | _ => throw failure

def stages (m : Machine σ) (env : Environment) : List (Stage σ) :=
  [logVersions m, install m, resolveTemplate env, buildFlags, execute m]

/-- What a run needs besides its configuration: a runner, the environment that programs without
one of their own inherit and that templates see, and further observers. -/
structure Setup where
  runner : Runner := {}
  environment : Environment := .empty
  observers : List (Observer World) := []

def Setup.stages (s : Setup) : List (Stage World) :=
  Execution.stages (s.runner.machine s.environment) s.environment

def resultUnder (s : Setup) (observers : List (Observer World)) (c : Config) :
    Act World RunResult := do
  let ending ← ExceptT.lift (Pipeline.run ⟨s.stages, observers⟩ c)
  match ending.failure, ending.entries.get? resultKey with
  | some failure, _ => throw failure
  | none, some (.result r) => return r
  | none, _ => throw ⟨.missingKeys "execute" [resultKey], []⟩

def result (s : Setup) (c : Config) : Act World RunResult := resultUnder s s.observers c

def report (s : Setup) (c : Config) : Act World Report := do
  Act.change fun w => { w with report := {} }
  match ← (resultUnder s (.timing :: .reporting :: s.observers) c).outcome with
  | .ok _ =>
    Act.change fun w => { w with report := { w.report with succeeded := true } }
    return (← Act.world).report
  | .error failure =>
    if failure.fault.isStepFault then
      Act.change fun w => { w with report := { w.report with category := failure.category } }
      Act.note [.runFailed failure.category failure.message]
      throw (.fatal (← Act.world).report failure)
    else throw failure

end CollectionRun.Execution
