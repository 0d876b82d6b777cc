import CollectionRun.Config.Basic
import CollectionRun.Text.Characters
import CollectionRun.Text.Search

/-! `Kind.read` accepts the JSON values of a kind in their usual spellings and names what is
wrong with all others; a list names every element that is no text. -/

namespace CollectionRun

inductive Problem where
  | notText
  | notFlag
  | flagUnclear
  | notInteger
  | integerUnclear
  | integerTooLong
  | fractional
  | notFinite
  | negative
  | notSandbox
  | notList
  | frozen
  deriving DecidableEq, Repr

namespace Problem

def code : Problem → String
  | notText => "string_type"
  | notFlag => "bool_type"
  | flagUnclear => "bool_parsing"
  | notInteger => "int_type"
  | integerUnclear => "int_parsing"
  | integerTooLong => "int_parsing_size"
  | fractional => "int_from_float"
  | notFinite => "finite_number"
  | negative => "greater_than_equal"
  | notSandbox => "literal_error"
  | notList => "list_type"
  | frozen => "frozen_instance"

def message : Problem → String
  | notText => "Input should be a valid string"
  | notFlag => "Input should be a valid boolean"
  | flagUnclear => "Input should be a valid boolean, unable to interpret input"
  | notInteger => "Input should be a valid integer"
  | integerUnclear => "Input should be a valid integer, unable to parse string as an integer"
  | integerTooLong => "Unable to parse input string as an integer, exceeded maximum size"
  | fractional => "Input should be a valid integer, got a number with a fractional part"
  | notFinite => "Input should be a finite number"
  | negative => "Input should be greater than or equal to 0"
  | notSandbox => "Input should be '', 'safe' or 'developer'"
  | notList => "Input should be a valid list"
  | frozen => "Instance is frozen"

end Problem

structure Violation where
  setting : String
  index : Option Nat := none
  problem : Problem
  given : Json.Value
  deriving Repr

def trueWords : List String := ["1", "on", "t", "true", "y", "yes"]

def falseWords : List String := ["0", "off", "f", "false", "n", "no"]

def flagOfWord? (s : String) : Option Bool :=
  let word := String.ofList (s.toList.map Char.toLower)
  if trueWords.contains word then some true
  else if falseWords.contains word then some false
  else none

def wordBound : Int := 9223372036854775808

/-- Only 0 and 1 are clear as numbers; a number beyond the machine words is no flag at all. -/
def flagOfInt (n : Int) : Except Problem Bool :=
  if n = 0 then .ok false
  else if n = 1 then .ok true
  else if -wordBound ≤ n && n < wordBound then .error .flagUnclear
  else .error .notFlag

def wordOfDecimal (x : Number.Binary64) : Except Problem Int :=
  match x.toInt? with
  | some n => if -wordBound < n && n < wordBound then .ok n else .error .integerTooLong
  | none => .error (if x.isFinite then .fractional else .notFinite)

def readFlag : Json.Value → Except Problem Bool
  | .bool b => .ok b
  | .integer n => flagOfInt n
  | .decimal x =>
    match wordOfDecimal x with
    | .ok n => flagOfInt n
    | .error _ => .error .notFlag
  | .string s =>
    match flagOfWord? s with
    | some b => .ok b
    | none => .error .flagUnclear
  | _ => .error .notFlag

namespace Numeral

def natValue? (cs : List Char) : Option Nat :=
  if cs.isEmpty || !cs.all Char.isDigit || Text.digitLimit < cs.length then none
  else if cs.head? = some '0' && cs != ['0'] then none
  else some (cs.foldl (fun n c => 10 * n + (c.toNat - '0'.toNat)) 0)

def plain? : List Char → Option Int
  | '-' :: digits => (natValue? digits).map fun n => -(n : Int)
  | digits => (natValue? digits).map fun n => (n : Int)

def isTooLong (cs : List Char) : Bool :=
  let cs := if cs.head? = some '-' then cs.tail else cs
  cs.head? != some '0' && Text.digitLimit < (cs.takeWhile Char.isDigit).length

/-! A numeral that is not plain may be padded: by white space, by a plus sign, by zeros in front,
by a fraction of zeros, and by underscores between digits. Among the zeros in front underscores
stand anywhere, and a minus sign may follow them. -/

/-- What follows zeros and underscores of which `last` is the one before. Of nothing but those,
the last is left; so is the one before a point. -/
def afterZeros (last : Char) : List Char → Option (List Char)
  | [] => some [last]
  | c :: rest =>
    if c = '0' || c = '_' then afterZeros c rest
    else if c = '.' then some (last :: c :: rest)
    else if c.isDigit || c = '-' then some (c :: rest)
    else none

def dropZeros : List Char → Option (List Char)
  | '0' :: rest => afterZeros '0' rest
  | c :: rest => if c.isDigit then some (c :: rest) else none
  | [] => none

def dropZeroFraction (cs : List Char) : Option (List Char) :=
  match cs.dropWhile (· != '.') with
  | [] => some cs
  | _ :: zeros =>
    if !zeros.isEmpty && zeros.all (· == '0') then some (cs.takeWhile (· != '.')) else none

/-- A text without its underscores, none of which may be first, last or next to another. -/
def dropUnderscores (cs : List Char) : Option (List Char) :=
  if cs.head? = some '_' || cs.getLast? = some '_' || Text.occursIn ['_', '_'] cs then none
  else some (cs.filter (· != '_'))

def unpadded? (cs : List Char) : Option (List Char) := do
  dropUnderscores (← dropZeroFraction (← dropZeros cs))

def padded? (cs : List Char) : Option Int :=
  match Text.trimBy Text.isWhiteSpace cs with
  | '-' :: rest => (unpadded? rest).bind fun digits => plain? ('-' :: digits)
  | '+' :: rest => (unpadded? rest).bind plain?
  | rest => (unpadded? rest).bind plain?

end Numeral

def integerOfText (s : String) : Except Problem Int :=
  if Numeral.isTooLong s.toList then .error .integerTooLong
  else match (Numeral.plain? s.toList).or (Numeral.padded? s.toList) with
    | some n => .ok n
    | none => .error .integerUnclear

def integerOf : Json.Value → Except Problem Int
  | .bool b => .ok (if b then 1 else 0)
  | .integer n => .ok n
  | .decimal x => wordOfDecimal x
  | .string s => integerOfText s
  | _ => .error .notInteger

def readCount (v : Json.Value) : Except Problem Int := do
  let n ← integerOf v
  if n < 0 then .error .negative else .ok n

def readText : Json.Value → Except Problem String
  | .string s => .ok s
  | _ => .error .notText

def sandboxModes : List String := ["", "safe", "developer"]

def readSandbox : Json.Value → Except Problem String
  | .string s => if sandboxModes.contains s then .ok s else .error .notSandbox
  | _ => .error .notSandbox

def readWords (index : Nat) : List Json.Value → List String × List (Nat × Json.Value)
  | [] => ([], [])
  | .string s :: rest =>
    let (words, bad) := readWords (index + 1) rest
    (s :: words, bad)
  | v :: rest =>
    let (words, bad) := readWords (index + 1) rest
    (words, (index, v) :: bad)

namespace Setting

def whole {α : Type} (s : Setting) (given : Json.Value) : Except Problem α → Except (List Violation) α
  | .ok v => .ok v
  | .error problem => .error [{ setting := s.name, problem, given }]

def readList (s : Setting) : Json.Value → Except (List Violation) (List String)
  | .array items =>
    match readWords 0 items with
    | (words, []) => .ok words
    | (_, bad) =>
      .error (bad.map fun (i, given) =>
        { setting := s.name, index := some i, problem := .notText, given })
  | given => s.whole given (.error .notList)

def readAs (s : Setting) : (k : Kind) → Json.Value → Except (List Violation) k.Carrier
  | .text, v => s.whole v (readText v)
  | .flag, v => s.whole v (readFlag v)
  | .count, v => s.whole v (readCount v)
  | .sandbox, v => s.whole v (readSandbox v)
  | .words, v => s.readList v

def read (s : Setting) (v : Json.Value) : Except (List Violation) s.kind.Carrier := s.readAs s.kind v

end Setting

namespace Violation

def fitting (room : Nat) : List Char → List Char
  | [] => []
  | c :: rest => if c.utf8Size ≤ room then c :: fitting (room - c.utf8Size) rest else []

def octetCount (cs : List Char) : Nat := cs.foldr (fun c n => c.utf8Size + n) 0

def mostOctets : Nat := 50

def shortened (cs : List Char) : List Char :=
  if octetCount cs ≤ mostOctets then cs
  else
    fitting (mostOctets / 2) cs ++ ['.', '.', '.'] ++
      (fitting (mostOctets / 2 - 1) cs.reverse).reverse

def place (v : Violation) : String :=
  match v.index with
  | some i => s!"{v.setting}.{i}"
  | none => v.setting

def explain (v : Violation) : String :=
  let given := String.ofList (shortened v.given.shown.toList)
  s!"{v.place}\n  {v.problem.message} [type={v.problem.code}, input_value={given}, " ++
    s!"input_type={v.given.typeName}]\n" ++
    s!"    For further information visit https://errors.pydantic.dev/2.14/v/{v.problem.code}"

def explainAll (vs : List Violation) : String :=
  let noun := if vs.length = 1 then "error" else "errors"
  "\n".intercalate (s!"{vs.length} validation {noun} for StepConfig" :: vs.map explain)

end Violation

end CollectionRun
