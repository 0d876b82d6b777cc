import CollectionRun.CommandLine.Run
import CollectionRun.Json.Reader
import CollectionRun.Runner.ScriptJson

/-! Rehearses a run from the command line: the scripts of the programs are read from standard
input as a JSON array, and programs beyond them succeed in silence. -/

namespace CollectionRun

/-- The variables of a block in which every variable ends with a zero octet. -/
def Environment.ofBlock (octets : List UInt8) : Environment :=
  let named (cs : List Char) : String × String :=
    (String.ofList (cs.takeWhile (· != '=')), String.ofList ((cs.dropWhile (· != '=')).drop 1))
  .ofList (((Text.splitAt '\x00' (Text.Utf8.decodeLossy octets)).filter (!·.isEmpty)).map named)

def fileContent? (path : String) : IO (Option (List UInt8)) :=
  try return some (← IO.FS.readBinFile path).toList
  catch _ => return none

def filesAt (paths : List Path) : IO CommandLine.Files := do
  let contents ← paths.mapM fun path => return (path, ← fileContent? path.toString)
  return fun path =>
    match (contents.find? (·.1 = path)).bind (·.2) with
    | some octets => .ok octets
    | none => .error .missing

end CollectionRun

open CollectionRun in
def main (argv : List String) : IO UInt32 := do
  let block ← fileContent? "/proc/self/environ"
  let stdin ← IO.getStdin
  let recorded := ((Json.read? (← stdin.readToEnd)).map Json.Value.asArray).getD []
  let named := match CommandLine.Arguments.read argv with
    | .run { config := .value path, .. } => [path]
    | _ => []
  let site : CommandLine.Site := {
    environment := .ofBlock (block.getD [])
    files := ← filesAt (CommandLine.envFilePath :: named)
    scripts := recorded.map Script.ofJson }
  match CommandLine.run "-" site argv with
  | .error failure =>
    (← IO.getStderr).putStrLn failure.message
    return 1
  | .ok ended =>
    (← IO.getStdout).putStr ended.stdout
    (← IO.getStderr).putStr ended.stderr
    return UInt32.ofNat ended.exitCode.toNat
