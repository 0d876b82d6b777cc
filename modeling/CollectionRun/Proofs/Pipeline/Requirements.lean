import CollectionRun.Proofs.Pipeline.Calls
import Mathlib.Data.String.Basic

namespace CollectionRun

variable {σ : Type}

namespace OrderedMap

variable {κ α : Type} [DecidableEq κ]

end OrderedMap

namespace Keys

end Keys

namespace Stage

variable {s : Stage σ} {required provided : List String}

end Stage

namespace Call

variable {call : Call} {given left : Entries}

end Call

namespace Pipeline

section

variable {p : Pipeline σ} {c : Config} {start entries left : Entries} {n : Nat} {calls : List Call}
  {s : Stage σ} {x : Nat → StageResult}

/-! ### The calls for a stage -/

end

/-- A stage that takes away what the next one requires. -/
example :
    let grasping : Stage Unit := { label := "grasping", process := fun _ _ => return ⟨.ok {}, .empty⟩ }
    let needy : Stage Unit := .declared (.of (some "needy") ["a"] []) fun _ _ => return {}
    let start : Entries := .ofList [("a", .json .null)]
    let ran := (run ⟨[grasping, needy], []⟩ .standard start).run ⟨[], ()⟩
    ran.1.failure.map Failure.message = some "Missing required keys for step 'needy': a" := by
  decide

end Pipeline

end CollectionRun
