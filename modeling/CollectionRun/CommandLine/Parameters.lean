import CollectionRun.CommandLine.Arguments
import CollectionRun.Failure
import CollectionRun.Text.Lines

namespace CollectionRun.CommandLine

abbrev Files := Path → Except FileProblem (List UInt8)

def decoded (octets : List UInt8) : Except Failure (List Char) :=
  match Text.Utf8.decode? octets with
  | .error fault => .error ⟨.utf8 fault, []⟩
  | .ok cs => .ok cs

def readText (files : Files) (path : Path) : Except Failure (List Char) := do
  if path.toString.contains '\x00' then throw ⟨.badValue "embedded null byte", []⟩
  match files path with
  | .error problem => throw ⟨.file path problem, []⟩
  | .ok octets => return Text.normalizeLineEnds (← decoded octets)

def readJson (files : Files) (path : Path) : Except Failure Json.Value := do
  let cs ← readText files path
  match Json.read cs with
  | .error fault => throw ⟨.json cs fault, []⟩
  | .ok v => return v

def readParameters (files : Files) (path : Path) : Except Failure Parameters :=
  match readJson files path with
  | .error failure => .error (.of (.parametersUnread path) failure)
  | .ok (.object members) => .ok ⟨members⟩
  | .ok v => .error ⟨.parametersNotObject path v.typeName, []⟩

def collectionSpelling : String := "brunoCollection"

def envFilePath : Path := ⟨"", [".env"]⟩

def readEnvFile (files : Files) : Except Failure (Option String) := do
  match files envFilePath with
  | .error _ => return none
  | .ok octets => return some (String.ofList (← decoded octets))

namespace Arguments

def fileParameters (a : Arguments) (files : Files) : Except Failure Parameters :=
  match a.config with
  | .value path => readParameters files path
  | .bare => .error ⟨.noAttribute "list" "read_text", []⟩
  | .nothing => .ok .empty

def parameters (a : Arguments) (files : Files) : Except Failure Parameters := do
  let ps ← a.fileParameters files
  let collection := a.collection.value?.getD ""
  return if collection.isEmpty then ps else ps.put collectionSpelling (.string collection)

def loadConfig (a : Arguments) (files : Files) (environment : Environment) :
    Except Failure Config := do
  let ps ← a.parameters files
  let envFile ← readEnvFile files
  (Config.build ⟨environment, envFile⟩ ps).mapError BuildFault.failure

end Arguments

end CollectionRun.CommandLine
