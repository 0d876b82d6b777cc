namespace CollectionRun

/-- Entries in the order in which their keys first appeared. -/
structure OrderedMap (κ α : Type) where
  entries : List (κ × α) := []
  deriving Repr, DecidableEq

namespace OrderedMap

variable {κ α : Type} [DecidableEq κ]

def findIn (key : κ) : List (κ × α) → Option α
  | [] => none
  | (k, v) :: rest => if k = key then some v else findIn key rest

/-- Writes in place, or at the end when the key is new. -/
def putIn (key : κ) (value : α) : List (κ × α) → List (κ × α)
  | [] => [(key, value)]
  | (k, v) :: rest => if k = key then (k, value) :: rest else (k, v) :: putIn key value rest

def empty : OrderedMap κ α := ⟨[]⟩

def get? (m : OrderedMap κ α) (key : κ) : Option α := findIn key m.entries

def put (m : OrderedMap κ α) (key : κ) (value : α) : OrderedMap κ α := ⟨putIn key value m.entries⟩

def erase (m : OrderedMap κ α) (key : κ) : OrderedMap κ α := ⟨m.entries.filter (·.1 ≠ key)⟩

def contains (m : OrderedMap κ α) (key : κ) : Bool := (m.get? key).isSome

def keys (m : OrderedMap κ α) : List κ := m.entries.map (·.1)

def update (m other : OrderedMap κ α) : OrderedMap κ α :=
  other.entries.foldl (fun acc e => acc.put e.1 e.2) m

def ofList (entries : List (κ × α)) : OrderedMap κ α := (empty : OrderedMap κ α).update ⟨entries⟩

end OrderedMap

abbrev Environment := OrderedMap String String

namespace Environment

def lookup (env : Environment) (name : String) : String := (env.get? name).getD ""

end Environment

end CollectionRun
