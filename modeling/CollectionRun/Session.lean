import CollectionRun.Flags
import CollectionRun.Pipeline.Stage
import CollectionRun.RunOptions

/-! A configuration holds its lists by their places in a store, where they grow in place:
amending a configuration leaves the lists that are not replaced where they are, and building one
puts all of its lists, the defaults too, at places of their own. -/

namespace CollectionRun

def Json.Value.texts? : List Json.Value → Option (List String)
  | [] => some []
  | .string s :: rest => (texts? rest).map (s :: ·)
  | _ => none

def Kind.ofJson? : (k : Kind) → Json.Value → Option k.Carrier
  | .text, .string s => some s
  | .flag, .bool b => some b
  | .count, .integer n => some n
  | .sandbox, .string s => some s
  | .words, .array items => Json.Value.texts? items
  | _, _ => none

namespace Config

def amendOne (c : Config) (name : String) (v : Json.Value) : Config :=
  match Setting.named? name with
  | some s =>
    match s.kind.ofJson? v with
    | some value => c.set s value
    | none => c
  | none => c

def amend (c : Config) (changes : Parameters) : Config :=
  changes.entries.foldl (fun c (name, v) => c.amendOne name v) c

end Config

abbrev Place := Nat

structure Store where
  lists : List (List String)
  deriving Repr

namespace Store

def read (store : Store) (p : Place) : List String := (store.lists[p]?).getD []

def grow (store : Store) (p : Place) (element : String) : Store :=
  ⟨store.lists.modify p (· ++ [element])⟩

/-- The place of the standard run options, which a configuration copies that is given none. -/
def standard : Place := 0

def initial : Store := ⟨[Setting.standardRunOptions]⟩

end Store

namespace Kind

/-- What a configuration holds for a setting: a value, or the place of a list. -/
abbrev Held : Kind → Type
  | .text => String
  | .flag => Bool
  | .count => Int
  | .sandbox => String
  | .words => Place

def place? : (k : Kind) → k.Held → Option Place
  | .words, p => some p
  | _, _ => none

def load (store : Store) : (k : Kind) → k.Held → k.Carrier
  | .text, v => v
  | .flag, v => v
  | .count, v => v
  | .sandbox, v => v
  | .words, p => store.read p

def held (p : Place) : (k : Kind) → k.Carrier → k.Held
  | .text, v => v
  | .flag, v => v
  | .count, v => v
  | .sandbox, v => v
  | .words, _ => p

def elements : (k : Kind) → k.Carrier → List String
  | .words, texts => texts
  | _, _ => []

end Kind

structure Holding where
  get : (s : Setting) → s.kind.Held

namespace Holding

def set (h : Holding) (s : Setting) (v : s.kind.Held) : Holding :=
  ⟨fun t => if e : s = t then e ▸ v else h.get t⟩

def place? (h : Holding) (s : Setting) : Option Place := s.kind.place? (h.get s)

def load (h : Holding) (store : Store) : Config := ⟨fun s => s.kind.load store (h.get s)⟩

end Holding

def Setting.lists : List Setting := all.filter (·.kind = .words)

def Surroundings.layer (w : Surroundings) (ps : Parameters) : Except BuildFault Layer := do
  let environment ← w.environmentLayer
  let envFile ← w.envFileLayer
  return ((Layer.ofParameters ps).atop environment).atop envFile

namespace Store

def hold (store : Store) (c : Config) : Holding × Store :=
  (⟨fun s => s.kind.held (store.lists.length + Setting.lists.idxOf s) (c.get s)⟩,
    ⟨store.lists ++ Setting.lists.map fun s => s.kind.elements (c.get s)⟩)

/-- The configuration that is built where the standard run options are those in the store. -/
def build (store : Store) (w : Surroundings) (ps : Parameters) : Except BuildFault Config := do
  let layer ← w.layer ps
  let c ← (Config.ofLayer layer).mapError .invalid
  return if (layer .runOptions).isNone then c.set .runOptions (store.read standard) else c

end Store

structure Session where
  config : Config
  surroundings : Surroundings

namespace Session

inductive Request where
  | lookup (spelling : String)
  | assign (name : String) (v : Json.Value)
  | append (spelling element : String)
  | amend (changes : Parameters)
  | renew (parameters : Parameters)
  | setVariable (name value : String)
  | unsetVariable (name : String)
  | resolve
  | flags
  | dump

def Request.answer (c : Config) (w : Surroundings) : Request → Except Failure Json.Value
  | .lookup spelling =>
    match c.lookup? spelling with
    | some v => .ok v
    | none => .error ⟨.unknownSetting spelling, []⟩
  | .assign name given =>
    .error ⟨.violations [{ setting := name, problem := .frozen, given }], []⟩
  | .append spelling _ =>
    match Setting.spelled? spelling with
    | some s =>
      if s.kind = .words then .ok .null
      else .error ⟨.noAttribute (c.value s).typeName "append", []⟩
    | none => .error ⟨.unknownSetting spelling, []⟩
  | .amend _ => .ok .null
  | .renew ps => ((Config.build w ps).map fun _ => .null).mapError BuildFault.failure
  | .setVariable _ _ => .ok .null
  | .unsetVariable _ => .ok .null
  | .resolve => (RunOptions.resolve c (some ∘ w.environment.lookup)).map Json.Value.strings
  | .flags => c.flagWords.map Json.Value.strings
  | .dump => .ok c.toJson

structure State where
  store : Store
  holding : Holding
  surroundings : Surroundings

namespace State

def config (st : State) : Config := st.holding.load st.store

def set (st : State) (s : Setting) (v : s.kind.Carrier) : State :=
  { st with
    holding := st.holding.set s (s.kind.held st.store.lists.length v)
    store := if s.kind = .words then ⟨st.store.lists ++ [s.kind.elements v]⟩ else st.store }

def amendOne (st : State) (name : String) (v : Json.Value) : State :=
  match Setting.named? name with
  | some s =>
    match s.kind.ofJson? v with
    | some value => st.set s value
    | none => st
  | none => st

def hold (st : State) (c : Config) : State :=
  let (holding, store) := st.store.hold c
  { st with holding, store }

def withEnvironment (st : State) (f : Environment → Environment) : State :=
  { st with surroundings :=
      { st.surroundings with environment := f st.surroundings.environment } }

def next (st : State) : Request → State
  | .append spelling element =>
    match (Setting.spelled? spelling).bind st.holding.place? with
    | some p => { st with store := st.store.grow p element }
    | none => st
  | .amend changes => changes.entries.foldl (fun st (name, v) => st.amendOne name v) st
  | .renew ps =>
    match st.store.build st.surroundings ps with
    | .ok c => st.hold c
    | .error _ => st
  | .setVariable name value => st.withEnvironment (·.put name value)
  | .unsetVariable name => st.withEnvironment (·.erase name)
  | .lookup _ | .assign _ _ | .resolve | .flags | .dump => st

def answers (st : State) : List Request → List (Except Failure Json.Value)
  | [] => []
  | r :: rest => r.answer st.config st.surroundings :: (st.next r).answers rest

end State

def start (s : Session) : State :=
  let (holding, store) := Store.initial.hold s.config
  { store, holding, surroundings := s.surroundings }

def answers (s : Session) (rs : List Request) : List (Except Failure Json.Value) :=
  s.start.answers rs

end Session

end CollectionRun
