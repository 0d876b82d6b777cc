import CollectionRun.Folder
import CollectionRun.Text.Characters
import CollectionRun.Text.Quoted

/-! Three long switches, which may be cut short, and two spellings of help. All arguments are
sorted into switches and words first, and then read from left to right. -/

namespace CollectionRun.CommandLine

inductive Switch where
  | help
  | config
  | collection
  | verbose
  deriving DecidableEq, Repr

namespace Switch

def spellings : List (String × Switch) :=
  [("-h", help), ("--help", help), ("--config", config), ("--collection", collection),
    ("--verbose", verbose)]

def takesValue : Switch → Bool
  | config | collection => true
  | help | verbose => false

def title (s : Switch) : String :=
  "/".intercalate ((spellings.filter (·.2 = s)).map (·.1))

def spelled? (spelling : String) : Option Switch :=
  (spellings.find? (·.1 = spelling)).map (·.2)

end Switch

inductive UsageFault where
  | ambiguous (argument : String) (matching : List String)
  | valueExpected (s : Switch)
  | valueIgnored (s : Switch) (value : String)
  | unrecognized (arguments : List String)
  deriving DecidableEq, Repr

def UsageFault.message : UsageFault → String
  | .ambiguous argument matching =>
    s!"ambiguous option: {argument} could match " ++ ", ".intercalate matching
  | .valueExpected s => s!"argument {s.title}: expected one argument"
  | .valueIgnored s value =>
    s!"argument {s.title}: ignored explicit argument {Text.quoted value}"
  | .unrecognized arguments => "unrecognized arguments: " ++ " ".intercalate arguments

/-- An argument by its sort; a switch has its spelling and the value given in the same argument. -/
inductive Sorted where
  | word (s : String)
  | separator
  | switch (s : Switch) (spelling : String) (value? : Option String)
  | unknown (s : String)
  deriving DecidableEq, Repr

namespace Sorted

def atEquals (s : String) : String × Option String :=
  match s.toList.dropWhile (· != '=') with
  | [] => (s, none)
  | _ :: value => (String.ofList (s.toList.takeWhile (· != '=')), some (String.ofList value))

def candidates (s : String) : List (Switch × String × Option String) :=
  match s.toList with
  | '-' :: '-' :: _ =>
    let (short, value?) := atEquals s
    Switch.spellings.filterMap fun (spelling, sw) =>
      if short.toList.isPrefixOf spelling.toList then some (sw, spelling, value?) else none
  | '-' :: c :: value =>
    Switch.spellings.filterMap fun (spelling, sw) =>
      if spelling.toList = ['-', c] then some (sw, spelling, some (String.ofList value)) else none
  | _ => []

def isDigitsToEnd (cs : List Char) : Bool :=
  let behind := cs.dropWhile Text.isDecimalDigit
  !(cs.takeWhile Text.isDecimalDigit).isEmpty && (behind.isEmpty || behind = ['\n'])

def isNegativeNumber (s : String) : Bool :=
  match s.toList with
  | '-' :: rest =>
    isDigitsToEnd rest ||
      match rest.dropWhile Text.isDecimalDigit with
      | '.' :: places => isDigitsToEnd places
      | _ => false
  | _ => false

def ofArgument (s : String) : Except UsageFault Sorted :=
  let plain : Sorted :=
    if isNegativeNumber s || s.toList.contains ' ' then .word s else .unknown s
  if s.toList.head? != some '-' then .ok (.word s)
  else if s = "--" then .ok .separator
  else match Switch.spelled? s with
    | some sw => .ok (.switch sw s none)
    | none =>
      if s = "-" then .ok (.word s)
      else match atEquals s with
        | (spelling, some value) =>
          match Switch.spelled? spelling with
          | some sw => .ok (.switch sw spelling (some value))
          | none => ofCandidates s plain
        | _ => ofCandidates s plain
where
  ofCandidates (s : String) (plain : Sorted) : Except UsageFault Sorted :=
    match candidates s with
    | [] => .ok plain
    | [(sw, spelling, value?)] => .ok (.switch sw spelling value?)
    | several => .error (.ambiguous s (several.map (·.2.1)))

def all : List String → Except UsageFault (List Sorted)
  | [] => .ok []
  | s :: rest => do
    match ← ofArgument s with
    | .separator => return .separator :: rest.map .word
    | sorted => return sorted :: (← all rest)

end Sorted

/-- What a switch that takes a value was given: nothing, a value, or the bare separator. -/
inductive Given (α : Type) where
  | nothing
  | bare
  | value (a : α)
  deriving DecidableEq, Repr

def Given.value? {α : Type} : Given α → Option α
  | .value a => some a
  | _ => none

structure Arguments where
  config : Given Path := .nothing
  collection : Given String := .nothing
  verbose : Bool := false
  deriving DecidableEq, Repr

inductive Reading where
  | run (a : Arguments)
  | help
  | refused (f : UsageFault)
  deriving DecidableEq, Repr

namespace Arguments

def withGiven (a : Arguments) (given : Given String) : Switch → Arguments
  | .config =>
    { a with config := match given with
        | .value spelling => .value (.ofString spelling)
        | .bare => .bare
        | .nothing => .nothing }
  | .collection => { a with collection := given }
  | _ => a

/-- The value in the argument of a switch that takes one. The separator stands for no value, as in
the parser's releases before 3.11.9 and 3.12.3; later ones take it for a text. -/
def given (value : String) : Given String := if value = "--" then .bare else .value value

/-- A value given in the argument of a switch that takes none. Behind the short spelling of help
it may only repeat the letter of that spelling. -/
def surplus (s : Switch) (spelling value : String) : Reading :=
  if spelling = "-h" && !value.isEmpty then
    match value.toList.dropWhile (· == 'h') with
    | [] => .help
    | rest => .refused (.valueIgnored s (String.ofList rest))
  else .refused (.valueIgnored s value)

def readFrom (a : Arguments) (extras : List String) : List Sorted → Reading
  | [] => if extras.isEmpty then .run a else .refused (.unrecognized extras)
  | .word s :: rest => readFrom a (extras ++ [s]) rest
  | .unknown s :: rest => readFrom a (extras ++ [s]) rest
  | .separator :: rest => readFrom a (extras ++ ["--"]) rest
  | .switch s spelling (some value) :: rest =>
    if s.takesValue then readFrom (a.withGiven (given value) s) extras rest
    else surplus s spelling value
  | .switch .help _ none :: _ => .help
  | .switch .verbose _ none :: rest => readFrom { a with verbose := true } extras rest
  | .switch s _ none :: .word value :: rest => readFrom (a.withGiven (.value value) s) extras rest
  | .switch s _ none :: _ => .refused (.valueExpected s)

def read (argv : List String) : Reading :=
  match Sorted.all argv with
  | .error fault => .refused fault
  | .ok sorted => readFrom {} [] sorted

end Arguments

def programName : String := "bruno-execute"

def usage : String :=
  "usage: bruno-execute [-h] [--config CONFIG] [--collection COLLECTION]\n" ++
  "                     [--verbose]\n"

def helpText : String :=
  usage ++
  "\nInstall the Bruno CLI and run an API test collection\n" ++
  "\noptions:\n" ++
  "  -h, --help            show this help message and exit\n" ++
  "  --config CONFIG       JSON file with step parameters (camelCase or\n" ++
  "                        snake_case keys)\n" ++
  "  --collection COLLECTION\n" ++
  "                        Bruno collection to run, overrides the parameters file\n" ++
  "  --verbose             Enable debug logging\n"

def UsageFault.text (f : UsageFault) : String :=
  usage ++ s!"{programName}: error: {f.message}\n"

end CollectionRun.CommandLine
