import CollectionRun.Config.Layers
import CollectionRun.Folder
import CollectionRun.Report
import CollectionRun.Template.Basic
import CollectionRun.Text.Utf8

/-!
A failure is a fault and the chain of faults that caused it. Some faults are faults of the step,
which carry a category; others come from below and are passed on as they are. A halt (a
cancellation, an exit, an interrupt) is meant to end everything, and nothing on its way takes
notice of it.
-/

namespace CollectionRun

inductive StepFault where
  | general
  | infrastructure
  | configuration
  | execution
  deriving DecidableEq, Repr

def StepFault.category : StepFault → Category
  | .general => .undefined
  | .infrastructure => .infrastructure
  | .configuration => .configuration
  | .execution => .undefined

inductive Fault where
  | raised (sort : StepFault) (text : String) (category : Category)
  | toolVersion (tool : String)
  | installation
  | templateUnread
  | templateUnrendered
  | testsFailed (category : Category)
  | invalidConfiguration
  | parametersUnread (path : Path)
  | parametersNotObject (path : Path) (type : String)
  | command (executable : String) (arguments : List String) (exitCode : Option Int)
      (category : Category)
  | missingKeys (stage : String) (keys : List String)
  | stageFailed (stage : String) (reason : Option String)
  | fatal (report : Report) (category : Category)
  | templateSyntax (fault : Template.SyntaxFault)
  | templateRender (fault : Template.RenderFault)
  | violations (found : List Violation)
  | unreadableSetting (setting : Setting) (source : Source)
  | unknownSetting (spelling : String)
  | json (text : List Char) (fault : Json.Fault)
  | utf8 (fault : Text.Utf8.Fault)
  | file (path : Path) (problem : FileProblem)
  | system (text : String)
  | badValue (text : String)
  | runtime (text : String)
  | notItems (type : String)
  | notArguments (type : String)
  | argumentNotText (index : Nat) (type : String)
  | noAttribute (type name : String)
  | halt (name text : String)
  deriving Repr

namespace Fault

def sort? : Fault → Option StepFault
  | raised sort _ _ => some sort
  | toolVersion _ => some .infrastructure
  | installation | templateUnread | templateUnrendered | invalidConfiguration
  | parametersUnread _ | parametersNotObject _ _ => some .configuration
  | testsFailed _ => some .execution
  | command _ _ _ _ | missingKeys _ _ | stageFailed _ _ | fatal _ _ => some .general
  | _ => none

def isStepFault (f : Fault) : Bool := f.sort?.isSome

def isHalt : Fault → Bool
  | halt _ _ => true
  | _ => false

def category : Fault → Category
  | raised _ _ category => category
  | testsFailed category => category
  | command _ _ _ category => category
  | fatal _ category => category
  | f => (f.sort?.map StepFault.category).getD .undefined

def octet (b : UInt8) : String := String.ofList (Text.hexDigits 2 b.toNat)

def utf8Text (f : Text.Utf8.Fault) : String :=
  match f.octets with
  | [b] => s!"'utf-8' codec can't decode byte 0x{octet b} in position {f.offset}: {f.problem.message}"
  | octets =>
    s!"'utf-8' codec can't decode bytes in position {f.offset}-{f.offset + octets.length - 1}: " ++
      f.problem.message

def text : Fault → String
  | raised _ text _ => text
  | toolVersion tool => s!"error logging {tool} version"
  | installation => "error installing Bruno CLI"
  | templateUnread => "could not parse Bruno command template"
  | templateUnrendered => "error on executing template"
  | testsFailed _ => "The execution of the Bruno tests failed, see the log for details."
  | invalidConfiguration => "invalid step configuration"
  | parametersUnread path => s!"could not read step parameters from {path.toString}"
  | parametersNotObject path type =>
    s!"step parameters in {path.toString} must be a JSON object, got {type}"
  | command executable _ (some code) _ =>
    s!"running command '{executable}' failed with exit code {code}"
  | command executable _ none _ => s!"running command '{executable}' failed"
  | missingKeys stage keys =>
    let listed := if keys.isEmpty then "" else ": " ++ ", ".intercalate keys
    s!"Missing required keys for step '{stage}'" ++ listed
  | stageFailed stage reason =>
    let said := if (reason.getD "").isEmpty then "" else ": " ++ reason.getD ""
    s!"Step '{stage}' failed" ++ said
  | fatal _ _ => "step execution failed"
  | templateSyntax fault => fault.message
  | templateRender fault => fault.message
  | violations found => Violation.explainAll found
  | unreadableSetting setting source =>
    s!"error parsing value for field \"{setting.name}\" from source \"{source.name}\""
  | unknownSetting spelling => spelling
  | json text fault => fault.message text
  | utf8 fault => utf8Text fault
  | file path problem => s!"{problem.message}: {Text.quoted path.toString}"
  | system text => text
  | badValue text => text
  | runtime text => text
  | notItems type => s!"'{type}' object is not iterable"
  | notArguments type => s!"Value after * must be an iterable, not {type}"
  | argumentNotText index type => s!"sequence item {index}: expected str instance, {type} found"
  | noAttribute type name => s!"'{type}' object has no attribute '{name}'"
  | halt _ text => text

end Fault

structure Failure where
  fault : Fault
  causes : List Fault := []
  deriving Repr

namespace Failure

def chain (f : Failure) : List Fault := f.fault :: f.causes

def message (f : Failure) : String := ": ".intercalate (f.chain.map Fault.text)

def category (f : Failure) : Category := f.fault.category

def of (fault : Fault) (cause : Failure) : Failure := ⟨fault, cause.chain⟩

/-- The fatal failure that carries `report`; it has the category of its cause. -/
def fatal (report : Report) (cause : Failure) : Failure :=
  of (.fatal report cause.category) cause

end Failure

def Failure.overlong : Failure :=
  ⟨.badValue (s!"Exceeds the limit ({Text.digitLimit} digits) for integer string conversion; " ++
    "use sys.set_int_max_str_digits() to increase the limit"), []⟩

def BuildFault.failure : BuildFault → Failure
  | unreadable setting source => ⟨.unreadableSetting setting source, []⟩
  | invalid found => ⟨.invalidConfiguration, [.violations found]⟩

end CollectionRun
