import CollectionRun.Json.Value

namespace CollectionRun

inductive Kind where
  | text
  | flag
  | count
  | sandbox
  | words
  deriving DecidableEq, Repr

abbrev Kind.Carrier : Kind → Type
  | .text => String
  | .flag => Bool
  | .count => Int
  | .sandbox => String
  | .words => List String

/-- The settings, in the order in which violations name them. -/
inductive Setting where
  | collection
  | installCommand
  | runOptions
  | failOnError
  | environment
  | globalEnvironment
  | envFile
  | envVars
  | sandboxMode
  | recursive
  | bail
  | parallel
  | testsOnly
  | insecure
  | delay
  | csvFile
  | jsonFile
  | iterationCount
  | tags
  | excludeTags
  | reporterJson
  | reporterJunit
  | reporterHtml
  | skipAllHeaders
  | skipHeaders
  deriving DecidableEq, Repr

namespace Setting

def all : List Setting :=
  [collection, installCommand, runOptions, failOnError, environment, globalEnvironment, envFile,
    envVars, sandboxMode, recursive, bail, parallel, testsOnly, insecure, delay, csvFile, jsonFile,
    iterationCount, tags, excludeTags, reporterJson, reporterJunit, reporterHtml, skipAllHeaders,
    skipHeaders]

def name : Setting → String
  | collection => "bruno_collection"
  | installCommand => "bruno_install_command"
  | runOptions => "run_options"
  | failOnError => "fail_on_error"
  | environment => "bruno_environment"
  | globalEnvironment => "bruno_global_env"
  | envFile => "env_file"
  | envVars => "env_vars"
  | sandboxMode => "sandbox_mode"
  | recursive => "recursive"
  | bail => "bail"
  | parallel => "parallel"
  | testsOnly => "tests_only"
  | insecure => "insecure"
  | delay => "delay"
  | csvFile => "csv_file_path"
  | jsonFile => "json_file_path"
  | iterationCount => "iteration_count"
  | tags => "tags"
  | excludeTags => "exclude_tags"
  | reporterJson => "reporter_json"
  | reporterJunit => "reporter_junit"
  | reporterHtml => "reporter_html"
  | skipAllHeaders => "reporter_skip_all_headers"
  | skipHeaders => "reporter_skip_headers"

def kind : Setting → Kind
  | collection | installCommand | environment | globalEnvironment | envFile | csvFile | jsonFile
  | tags | excludeTags | reporterJson | reporterJunit | reporterHtml => .text
  | failOnError | recursive | bail | parallel | testsOnly | insecure | skipAllHeaders => .flag
  | delay | iterationCount => .count
  | sandboxMode => .sandbox
  | runOptions | envVars | skipHeaders => .words

def standardRunOptions : List String :=
  ["run", "\x7b\x7b.BrunoCollection\x7d\x7d",
    "--reporter-junit", "target/bruno/TEST-\x7b\x7b.CollectionDisplayName\x7d\x7d.xml",
    "--reporter-html", "target/bruno/TEST-\x7b\x7b.CollectionDisplayName\x7d\x7d.html"]

def default : (s : Setting) → s.kind.Carrier
  | installCommand => "npm install @usebruno/cli --global --quiet"
  | runOptions => standardRunOptions
  | failOnError => true
  | sandboxMode => "safe"
  | collection => ""
  | environment => ""
  | globalEnvironment => ""
  | envFile => ""
  | envVars => []
  | recursive => false
  | bail => false
  | parallel => false
  | testsOnly => false
  | insecure => false
  | delay => (0 : Int)
  | csvFile => ""
  | jsonFile => ""
  | iterationCount => (0 : Int)
  | tags => ""
  | excludeTags => ""
  | reporterJson => ""
  | reporterJunit => ""
  | reporterHtml => ""
  | skipAllHeaders => false
  | skipHeaders => []

def named? (s : String) : Option Setting := all.find? (·.name = s)

theorem mem_all (s : Setting) : s ∈ all := by cases s <;> decide

theorem named?_name (s : Setting) : named? s.name = some s := by cases s <;> decide

theorem name_injective {s t : Setting} (h : s.name = t.name) : s = t :=
  Option.some.inj (by rw [← named?_name s, h, named?_name])

theorem name_of_named? {n : String} {s : Setting} (h : named? n = some s) : s.name = n := by
  simpa using List.find?_some h

end Setting

structure Config where
  get : (s : Setting) → s.kind.Carrier

def Kind.toJson : (k : Kind) → k.Carrier → Json.Value
  | .text, v => .string v
  | .flag, v => .bool v
  | .count, v => .integer v
  | .sandbox, v => .string v
  | .words, v => .strings v

namespace Config

def standard : Config := ⟨Setting.default⟩

def set (c : Config) (s : Setting) (v : s.kind.Carrier) : Config :=
  ⟨fun t => if h : s = t then h ▸ v else c.get t⟩

def value (c : Config) (s : Setting) : Json.Value := s.kind.toJson (c.get s)

def toJson (c : Config) : Json.Value := .object (Setting.all.map fun s => (s.name, c.value s))

@[simp] theorem get_set_self (c : Config) (s : Setting) (v : s.kind.Carrier) :
    (c.set s v).get s = v := by
  simp [set]

theorem get_set_of_ne (c : Config) {s t : Setting} (v : s.kind.Carrier) (h : s ≠ t) :
    (c.set s v).get t = c.get t := by
  simp [set, h]

theorem ext {c d : Config} (h : ∀ s, c.get s = d.get s) : c = d := by
  cases c; cases d; congr 1; exact funext h

end Config

/-! A setting may be written in snake case, camel case or with hyphens; `snakeCase` brings all
spellings to the name of the setting. -/

namespace Spelling

/-- The small form of a letter, where it is an ASCII letter. -/
def small (c : Char) : Char := if c = '\u212A' then 'k' else c.toLower

/-- Whether a word begins at `c`, given the characters next to it: a capital after a small letter
or a digit, a capital after a capital and before a small letter, a digit after a small letter. -/
def startsWord (before c : Char) (after? : Option Char) : Bool :=
  (c.isUpper && (before.isLower || before.isDigit)) ||
    (c.isUpper && before.isUpper && after?.any Char.isLower) ||
    (c.isDigit && before.isLower)

def partWords (before : Char) : List Char → List Char
  | [] => []
  | c :: rest =>
    if startsWord before c rest.head? then '_' :: c :: partWords c rest else c :: partWords c rest

def snakeChars (cs : List Char) : List Char :=
  (partWords ' ' cs).map fun c => small (if c = '-' then '_' else c)

def snakeCase (s : String) : String := String.ofList (snakeChars s.toList)

def smallCase (s : String) : String := String.ofList (s.toList.map small)

end Spelling

namespace Setting

def spelled? (spelling : String) : Option Setting := named? (Spelling.snakeCase spelling)

def environmentName (s : Setting) : String := "bruno_execute_" ++ s.name

end Setting

end CollectionRun
