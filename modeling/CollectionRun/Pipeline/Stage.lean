import CollectionRun.Config.Basic
import CollectionRun.Journal

/-! A stage works on the configuration and on the entries that earlier stages have left, which it
may change. A needed entry that is missing keeps it from being started. -/

namespace CollectionRun

inductive Entry where
  | json (v : Json.Value)
  | result (r : RunResult)
  deriving Repr

namespace Entry

def typeName : Entry → String
  | json v => v.typeName
  | result _ => "ExecutionResult"

/-- The items of an entry: those of a list, the characters of a text, the names of an object. -/
def items? : Entry → Option (List Json.Value)
  | json (.array items) => some items
  | json (.string s) => some (s.toList.map fun c => .string (String.ofList [c]))
  | json (.object members) => some (members.map fun m => .string m.1)
  | _ => none

end Entry

abbrev Entries := OrderedMap String Entry

structure StageResult where
  status : Status := .completed
  data : Entries := .empty
  error : Option String := none
  deriving Repr

namespace Keys

def insert (key : String) : List String → List String
  | [] => [key]
  | k :: rest =>
    if key < k then key :: k :: rest else if key = k then k :: rest else k :: insert key rest

def ascending (keys : List String) : List String := keys.foldr insert []

end Keys

structure Declaration where
  name : String
  requires : List String := []
  provides : List String := []
  deriving DecidableEq, Repr

namespace Declaration

def standardName : String := "process"

def of (name? : Option String) (requires provides : List String) : Declaration :=
  ⟨name?.getD standardName, Keys.ascending requires, Keys.ascending provides⟩

end Declaration

structure Work where
  outcome : Except Failure StageResult
  entries : Entries

structure Stage (σ : Type) where
  label : String
  declaration : Option Declaration := none
  process : Config → Entries → StateM (Journal σ) Work

namespace Stage

variable {σ : Type}

def reading (act : Config → Entries → Act σ StageResult) (c : Config) (entries : Entries) :
    StateM (Journal σ) Work := do
  return ⟨← (act c entries).run, entries⟩

def declared (d : Declaration) (act : Config → Entries → Act σ StageResult) : Stage σ :=
  ⟨d.name, some d, reading act⟩

def name (s : Stage σ) : String := (s.declaration.map (·.name)).getD s.label

def requires (s : Stage σ) : List String := (s.declaration.map (·.requires)).getD []

def provides (s : Stage σ) : List String := (s.declaration.map (·.provides)).getD []

def missing (s : Stage σ) (entries : Entries) : List String :=
  s.requires.filter fun key => !entries.contains key

end Stage

/-- Is told before a stage starts and after it ends, one way or the other. A result that it is told
of goes on as it leaves it. -/
structure Observer (σ : Type) where
  before : (stage : String) → Act σ Unit := fun _ => return
  after : (stage : String) → StageResult → Act σ StageResult := fun _ result => return result
  failed : (stage : String) → Failure → Act σ Unit := fun _ _ => return

end CollectionRun
