import CollectionRun.Pipeline.Stage
import CollectionRun.Runner.Basic

namespace CollectionRun

structure Launch where
  argv : List String
  environment : Option Environment
  killed : Bool := false
  deriving Repr

inductive Note where
  | before (label stage : String)
  | after (label stage : String) (result : StageResult)
  | failed (label stage : String) (failure : Failure)

structure World where
  scripts : List Script := []
  launches : List Launch := []
  report : Report := {}
  timed : List String := []
  notes : List Note := []

namespace World

def nextScript (w : World) : Script × World :=
  match w.scripts with
  | [] => (.silent, w)
  | script :: rest => (script, { w with scripts := rest })

def launched (w : World) (l : Launch) : World := { w with launches := w.launches ++ [l] }

end World

/-- What a stage may ask of its surroundings: to run a program, and to look up a variable. -/
structure Machine (σ : Type) where
  run : (executable : String) → (arguments : List String) → Act σ Unit
  getenv : String → String

namespace Runner

def run (r : Runner) (executable : String) (arguments : List String) : Act World Unit := do
  let (script, w) := (← Act.world).nextScript
  let p := r.perform executable arguments script
  Act.change fun _ => w.launched ⟨executable :: arguments, r.environment, p.killed⟩
  Act.note p.events
  match p.failure with
  | some failure => throw failure
  | none => return

def machine (r : Runner) (inherited : Environment) : Machine World :=
  ⟨r.run, r.getenv inherited⟩

end Runner

end CollectionRun
