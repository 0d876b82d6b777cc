import CollectionRun.CommandLine.Parameters
import CollectionRun.Execution.Run

namespace CollectionRun.CommandLine

/-- What a run of the command line finds: the environment, the files, and the programs. -/
structure Site where
  environment : Environment
  files : Files
  scripts : List Script

structure Ended where
  exitCode : Int
  stdout : String := ""
  stderr : String := ""
  launches : List Launch := []

namespace Site

/-- The events up to a configuration: the statements of the environment file that do not fit,
which is only read once the parameters are. -/
def eventsOfLoading (s : Site) (a : Arguments) : List Event :=
  match a.parameters s.files, readEnvFile s.files with
  | .ok _, .ok (some text) => (EnvFile.unreadableLines text).map .statementSkipped
  | _, _ => []

end Site

def isShown (verbose : Bool) (level : Level) : Bool := verbose || Level.info.rank ≤ level.rank

def logLines (time : String) (verbose : Bool) (events : List Event) : String :=
  String.join ((events.filter fun e => isShown verbose e.level).map (Event.line time))

def perform (s : Site) (a : Arguments) : Except Failure Int × Journal World :=
  let start : Journal World := ⟨s.eventsOfLoading a, { scripts := s.scripts }⟩
  match a.loadConfig s.files s.environment with
  | .error failure =>
    if failure.fault.isStepFault then
      (.ok 1, { start with events := start.events ++ [.startFailed failure.message] })
    else (.error failure, start)
  | .ok config =>
    match (Execution.report { environment := s.environment } config).play start with
    | (.ok report, j) => (.ok 0, { j with events := j.events ++ [.finished report.succeeded] })
    | (.error failure, j) =>
      match failure.fault with
      | .fatal _ _ => (.ok 1, j)
      | _ => (.error failure, j)

def run (time : String) (s : Site) (argv : List String) : Except Failure Ended :=
  match Arguments.read argv with
  | .help => .ok { exitCode := 0, stdout := helpText }
  | .refused fault => .ok { exitCode := 2, stderr := fault.text }
  | .run a =>
    match perform s a with
    | (.error failure, _) => .error failure
    | (.ok exitCode, j) =>
      .ok { exitCode, stderr := logLines time a.verbose j.events, launches := j.world.launches }

end CollectionRun.CommandLine
