import CollectionRun.CommandLine.Parameters
import CollectionRun.Proofs.Config.Layering

/-! The collection of the command line is written over the one that the file has under the
spelling `brunoCollection`, in its place. So it decides unless the file names the collection
again, in another spelling and further on (`loadConfig_collection`). -/

namespace CollectionRun

open Spelling

namespace OrderedMap

variable {κ α : Type} [DecidableEq κ]

theorem putIn_eq (key : κ) (value : α) (es : List (κ × α)) :
    putIn key value es =
      es.takeWhile (·.1 ≠ key) ++ (key, value) :: (es.dropWhile (·.1 ≠ key)).tail := by
  induction es with
  | nil => rfl
  | cons e rest ih =>
    obtain ⟨k, v⟩ := e
    by_cases same : k = key
    · simp [putIn, same]
    · simp [putIn, same, ih]

theorem filter_putIn {p : κ × α → Bool} {key : κ} (unchanged : ∀ v, p (key, v) = false)
    (value : α) (es : List (κ × α)) : (putIn key value es).filter p = es.filter p := by
  induction es with
  | nil => simp [putIn, unchanged]
  | cons e rest ih =>
    obtain ⟨k, v⟩ := e
    by_cases same : k = key
    · simp [putIn, same, unchanged]
    · simp [putIn, same, List.filter_cons, ih]

end OrderedMap

namespace Parameters

variable (ps : Parameters) {s : Setting} {key : String} (v : Json.Value)

theorem ofParameters_eq_getLast? (s : Setting) :
    Layer.ofParameters ps s =
      (ps.entries.filter fun p => snakeCase p.1 = s.name).getLast?.map (·.2) := by
  rw [Layer.ofParameters, ← List.head?_filter, List.filter_reverse, List.head?_reverse]

theorem ofParameters_put_of_ne (other : snakeCase key ≠ s.name) :
    Layer.ofParameters (ps.put key v) s = Layer.ofParameters ps s := by
  rw [ofParameters_eq_getLast?, ofParameters_eq_getLast?]
  have unchanged : ∀ v : Json.Value, decide (snakeCase (key, v).1 = s.name) = false :=
    fun _ => decide_eq_false other
  rw [OrderedMap.put, OrderedMap.filter_putIn unchanged]

/-- The parameters behind the one under `key` that name the setting too. -/
def behind (key : String) (s : Setting) : List (String × Json.Value) :=
  (ps.entries.dropWhile (·.1 ≠ key)).tail.filter fun p => snakeCase p.1 = s.name

theorem ofParameters_put_self (named : snakeCase key = s.name) :
    Layer.ofParameters (ps.put key v) s = some (((ps.behind key s).getLast?.map (·.2)).getD v) := by
  rw [ofParameters_eq_getLast?, OrderedMap.put, OrderedMap.putIn_eq, List.filter_append,
    List.filter_cons_of_pos (by simpa using named), List.getLast?_append_cons]
  show Option.map _ ((key, v) :: ps.behind key s).getLast? = _
  rw [List.getLast?_cons]
  cases (ps.behind key s).getLast? <;> rfl

end Parameters

namespace Config

variable {w : Surroundings} {ps ps' : Parameters} {c c' : Config} {s : Setting}

theorem get_eq_of_build (built : build w ps = .ok c) (built' : build w ps' = .ok c')
    (same : Layer.ofParameters ps s = Layer.ofParameters ps' s) : c.get s = c'.get s := by
  obtain ⟨environment, envFile, foundE, foundF, holds⟩ := build_eq_ok_iff.mp built
  obtain ⟨environment', envFile', foundE', foundF', holds'⟩ := build_eq_ok_iff.mp built'
  obtain rfl := Except.ok.inj (foundE.symm.trans foundE')
  obtain rfl := Except.ok.inj (foundF.symm.trans foundF')
  have value := holds s
  rw [Layer.firstOf, same, ← Layer.firstOf, holds' s] at value
  exact (Except.ok.inj value).symm

theorem read_of_build (built : build w ps = .ok c) {v : Json.Value}
    (named : Layer.ofParameters ps s = some v) : s.read v = .ok (c.get s) := by
  obtain ⟨environment, envFile, _, _, holds⟩ := build_eq_ok_iff.mp built
  have value := holds s
  rwa [Layer.firstOf, named] at value

theorem build_of_parameters (holds : ∀ s, resolve s (Layer.ofParameters ps s) = .ok (c.get s)) :
    build ⟨.empty, none⟩ ps = .ok c := by
  refine build_eq_ok_iff.mpr ⟨fun _ => none, fun _ => none, rfl, rfl, fun s => ?_⟩
  rw [Layer.firstOf, Option.or_none, Option.or_none]
  exact holds s

end Config

theorem eq_string_of_readText {v : Json.Value} {x : String} (h : readText v = .ok x) :
    v = .string x := by
  unfold readText at h
  split at h
  · rw [Except.ok.inj h]
  · contradiction

namespace CommandLine.Arguments

variable {a : Arguments} {files : Files} {environment : Environment} {ps : Parameters}
  {name : String} {c : Config}

theorem loadConfig_eq_ok_iff : a.loadConfig files environment = .ok c ↔
    ∃ ps, a.parameters files = .ok ps ∧ ∃ envFile, readEnvFile files = .ok envFile ∧
      Config.build ⟨environment, envFile⟩ ps = .ok c := by
  unfold loadConfig
  simp only [bind_eq_ok_iff, mapError_eq_ok_iff]

theorem parameters_of_given (file : a.fileParameters files = .ok ps)
    (given : a.collection = .value name) (nonempty : name ≠ "") :
    a.parameters files = .ok (ps.put collectionSpelling (.string name)) := by
  have kept : name.isEmpty = false := by
    rw [Bool.eq_false_iff, ne_eq, String.isEmpty_iff]
    exact nonempty
  unfold parameters
  rw [file, given]
  show Except.ok (if name.isEmpty then _ else _) = _
  rw [kept]
  rfl

theorem parameters_of_nothing (file : a.fileParameters files = .ok ps) :
    { a with collection := .nothing }.parameters files = .ok ps := by
  have same : { a with collection := .nothing }.fileParameters files = .ok ps := file
  unfold parameters
  rw [same]
  rfl

theorem snakeCase_collectionSpelling : snakeCase collectionSpelling = Setting.collection.name := by
  decide

def oneFile (path : Path) (text : String) : Files := fun p =>
  if p = path then .ok (Text.Utf8.octetsOf text) else .error .missing

theorem fileParameters_oneFile {path : Path} {text : String} {members : List (String × Json.Value)}
    (named : a.config = .value path) (plain : '\x00' ∉ path.toString.toList)
    (decodes : Text.Utf8.decode? (Text.Utf8.octetsOf text) = .ok text.toList)
    (read : Json.read (Text.normalizeLineEnds text.toList) = .ok (.object members)) :
    a.fileParameters (oneFile path text) = .ok ⟨members⟩ := by
  have held : oneFile path text path = .ok (Text.Utf8.octetsOf text) := if_pos rfl
  have noNull : path.toString.contains '\x00' = false := by
    rw [String.contains_char_eq]
    exact decide_eq_false plain
  have whole : CommandLine.readText (oneFile path text) path =
      .ok (Text.normalizeLineEnds text.toList) := by
    unfold CommandLine.readText decoded
    rw [noNull, held]
    simp only [decodes]
    rfl
  have value : readJson (oneFile path text) path = .ok (.object members) := by
    refine bind_eq_ok_iff.mpr ⟨_, whole, ?_⟩
    rw [read]
    rfl
  unfold fileParameters readParameters
  rw [named]
  simp only [value]

def earlierSpelling : String := "\x7b\"bruno_collection\":\"b\",\"brunoCollection\":\"a\"\x7d"

def laterSpelling : String := "\x7b\"brunoCollection\":\"a\",\"bruno_collection\":\"b\"\x7d"

section Given

variable (file : a.fileParameters files = .ok ps) (given : a.collection = .value name)
  (nonempty : name ≠ "") (loaded : a.loadConfig files environment = .ok c)

include file given nonempty loaded

theorem collection_of_loadConfig :
    ((ps.behind collectionSpelling .collection).getLast?.map (·.2)).getD (.string name) =
      .string (c.get .collection) := by
  obtain ⟨ps', found, envFile, _, built⟩ := loadConfig_eq_ok_iff.mp loaded
  obtain rfl := Except.ok.inj ((parameters_of_given file given nonempty).symm.trans found)
  have named := ps.ofParameters_put_self (.string name) snakeCase_collectionSpelling
  have read := Config.read_of_build built named
  exact eq_string_of_readText (Setting.whole_eq_ok read)

theorem get_of_loadConfig {plain : Config} {s : Setting}
    (without : { a with collection := .nothing }.loadConfig files environment = .ok plain)
    (other : s ≠ .collection) : c.get s = plain.get s := by
  obtain ⟨ps', found, envFile, foundF, built⟩ := loadConfig_eq_ok_iff.mp loaded
  obtain rfl := Except.ok.inj ((parameters_of_given file given nonempty).symm.trans found)
  obtain ⟨ps'', found', envFile', foundF', built'⟩ := loadConfig_eq_ok_iff.mp without
  obtain rfl := Except.ok.inj ((parameters_of_nothing file).symm.trans found')
  obtain rfl := Except.ok.inj (foundF.symm.trans foundF')
  have different : snakeCase collectionSpelling ≠ s.name := by
    rw [snakeCase_collectionSpelling]
    intro same
    exact other (Setting.name_injective same).symm
  exact Config.get_eq_of_build built built' (ps.ofParameters_put_of_ne _ different)

end Given

/-- With a collection on the command line, the last parameter that names the collection behind
the place of `brunoCollection` decides, and where there is none, the command line. All else is as
without it. -/
theorem loadConfig_collection (file : a.fileParameters files = .ok ps)
    (given : a.collection = .value name) (nonempty : name ≠ "")
    (loaded : a.loadConfig files environment = .ok c) :
    (c.get .collection = name ↔
      ∀ last, (ps.behind collectionSpelling .collection).getLast? = some last →
        last.2 = .string name) ∧
    (∀ last, (ps.behind collectionSpelling .collection).getLast? = some last →
      last.2 = .string (c.get .collection)) ∧
    ∀ plain, { a with collection := .nothing }.loadConfig files environment = .ok plain →
      ∀ s, s ≠ .collection → c.get s = plain.get s := by
  have value := collection_of_loadConfig file given nonempty loaded
  refine and_assoc.mp ⟨?_, fun plain without s other =>
    get_of_loadConfig file given nonempty loaded without other⟩
  cases later : (ps.behind collectionSpelling .collection).getLast? with
  | none =>
    rw [later] at value
    have same : name = c.get .collection := Json.Value.string.inj value
    exact ⟨iff_of_true same.symm nofun, nofun⟩
  | some last =>
    rw [later] at value
    replace value : last.2 = .string (c.get .collection) := value
    refine ⟨?_, fun _ same => (Option.some.inj same) ▸ value⟩
    constructor
    · rintro same _ ⟨⟩
      rw [value, same]
    · intro all
      exact Json.Value.string.inj (value.symm.trans (all last rfl))

theorem loadConfig_collection_of_earlier_spelling :
    let path : Path := ⟨"", ["p.json"]⟩
    let files := oneFile path earlierSpelling
    let a : Arguments := { config := .value path, collection := .value "c" }
    ∃ ps c, a.fileParameters files = .ok ps ∧ a.collection = .value "c" ∧ "c" ≠ "" ∧
      a.loadConfig files .empty = .ok c ∧ c.get .collection = "c" := by
  intro path files a
  let ps : Parameters := ⟨[("bruno_collection", .string "b"), ("brunoCollection", .string "a")]⟩
  have read : Json.read (Text.normalizeLineEnds earlierSpelling.toList) =
      .ok (.object ps.entries) := by with_unfolding_all rfl
  have file : a.fileParameters files = .ok ps := fileParameters_oneFile rfl (by decide) rfl read
  have found := parameters_of_given file rfl (by decide : "c" ≠ "")
  have built : Config.build ⟨.empty, none⟩ (ps.put collectionSpelling (.string "c")) =
      .ok (Config.standard.set .collection "c") := Config.build_of_parameters fun s => by
    cases s <;> rfl
  have loaded : a.loadConfig files .empty = .ok _ :=
    loadConfig_eq_ok_iff.mpr ⟨_, found, none, rfl, built⟩
  have alone : ps.behind collectionSpelling .collection = [] := rfl
  have decides := (loadConfig_collection file rfl (by decide) loaded).1
  rw [alone] at decides
  exact ⟨ps, _, file, rfl, by decide, loaded, decides.mpr nofun⟩

theorem not_overridden_of_later_spelling :
    let path : Path := ⟨"", ["p.json"]⟩
    let files := oneFile path laterSpelling
    let a : Arguments := { config := .value path, collection := .value "c" }
    ∃ c, a.loadConfig files .empty = .ok c ∧ c.get .collection ≠ "c" := by
  intro path files a
  let ps : Parameters := ⟨[("brunoCollection", .string "a"), ("bruno_collection", .string "b")]⟩
  have read : Json.read (Text.normalizeLineEnds laterSpelling.toList) =
      .ok (.object ps.entries) := by with_unfolding_all rfl
  have file : a.fileParameters files = .ok ps := fileParameters_oneFile rfl (by decide) rfl read
  have found := parameters_of_given file rfl (by decide : "c" ≠ "")
  have built : Config.build ⟨.empty, none⟩ (ps.put collectionSpelling (.string "c")) =
      .ok (Config.standard.set .collection "b") := Config.build_of_parameters fun s => by
    cases s <;> rfl
  have different : "b" ≠ "c" := by decide
  exact ⟨_, loadConfig_eq_ok_iff.mpr ⟨_, found, none, rfl, built⟩, different⟩

end CommandLine.Arguments

end CollectionRun
