import CollectionRun.Failure
import CollectionRun.Text.Search

/-! A flag is a switch, or it has a value of its own, which is the element after it whatever that
looks like; so a list of flags can be read back from left to right. -/

namespace CollectionRun

inductive Flag where
  | switch (word : String)
  | valued (word value : String)
  deriving DecidableEq, Repr

namespace Flag

def words : Flag → List String
  | switch word => [word]
  | valued word value => [word, value]

def ofText (word value : String) : List Flag := if value.isEmpty then [] else [valued word value]

def ofFlag (word : String) (on : Bool) : List Flag := if on then [switch word] else []

def ofCount (word : String) (n : Int) : Except Failure (List Flag) :=
  if 0 < n then
    match Text.decimal? n with
    | some digits => .ok [valued word digits]
    | none => .error .overlong
  else .ok []

def ofWords (word : String) (values : List String) : List Flag := values.map (valued word)

def ofReporter (runOptions : List String) (word value : String) : List Flag :=
  if runOptions.any (Text.holds · word) then [] else ofText word value

def switches : List String :=
  ["-r", "--bail", "--parallel", "--tests-only", "--insecure", "--reporter-skip-all-headers"]

def valuedWords : List String :=
  ["--env", "--global-env", "--env-file", "--env-var", "--sandbox", "--delay", "--csv-file-path",
    "--json-file-path", "--iteration-count", "--tags", "--exclude-tags", "--reporter-json",
    "--reporter-junit", "--reporter-html", "--reporter-skip-headers"]

/-- Reads flags from left to right: one element for a switch, two for a flag with a value. -/
def readAll : List String → Option (List Flag)
  | [] => some []
  | [word] => if switches.contains word then some [switch word] else none
  | word :: next :: rest =>
    if switches.contains word then (readAll (next :: rest)).map (switch word :: ·)
    else if valuedWords.contains word then (readAll rest).map (valued word next :: ·)
    else none

end Flag

namespace Config

def flags (c : Config) : Except Failure (List Flag) := do
  let delay ← Flag.ofCount "--delay" (c.get .delay)
  let iterations ← Flag.ofCount "--iteration-count" (c.get .iterationCount)
  return Flag.ofText "--env" (c.get .environment) ++
    Flag.ofText "--global-env" (c.get .globalEnvironment) ++
    Flag.ofText "--env-file" (c.get .envFile) ++
    Flag.ofWords "--env-var" (c.get .envVars) ++
    Flag.ofText "--sandbox" (c.get .sandboxMode) ++
    Flag.ofFlag "-r" (c.get .recursive) ++
    Flag.ofFlag "--bail" (c.get .bail) ++
    Flag.ofFlag "--parallel" (c.get .parallel) ++
    Flag.ofFlag "--tests-only" (c.get .testsOnly) ++
    Flag.ofFlag "--insecure" (c.get .insecure) ++
    delay ++
    Flag.ofText "--csv-file-path" (c.get .csvFile) ++
    Flag.ofText "--json-file-path" (c.get .jsonFile) ++
    iterations ++
    Flag.ofText "--tags" (c.get .tags) ++
    Flag.ofText "--exclude-tags" (c.get .excludeTags) ++
    Flag.ofText "--reporter-json" (c.get .reporterJson) ++
    Flag.ofReporter (c.get .runOptions) "--reporter-junit" (c.get .reporterJunit) ++
    Flag.ofReporter (c.get .runOptions) "--reporter-html" (c.get .reporterHtml) ++
    Flag.ofFlag "--reporter-skip-all-headers" (c.get .skipAllHeaders) ++
    Flag.ofWords "--reporter-skip-headers" (c.get .skipHeaders)

def flagWords (c : Config) : Except Failure (List String) := do
  return (← c.flags).flatMap Flag.words

end Config

end CollectionRun
