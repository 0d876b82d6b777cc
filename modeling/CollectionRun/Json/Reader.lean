import CollectionRun.Json.Token

/-! The reader takes one token at a time. What it has open is a stack of arrays and objects, and
what may come next is a `Want`. A member name that comes twice keeps its first place and its last
value. -/

namespace CollectionRun.Json

inductive Problem where
  | expectedValue
  | expectedName
  | expectedColon
  | expectedComma
  | extraData
  | byteOrderMark
  | unterminatedString
  | controlCharacter
  | badEscape
  | badNumberEscape
  deriving DecidableEq, Repr

def Problem.message : Problem → String
  | .expectedValue => "Expecting value"
  | .expectedName => "Expecting property name enclosed in double quotes"
  | .expectedColon => "Expecting ':' delimiter"
  | .expectedComma => "Expecting ',' delimiter"
  | .extraData => "Extra data"
  | .byteOrderMark => "Unexpected UTF-8 BOM (decode using utf-8-sig)"
  | .unterminatedString => "Unterminated string starting at"
  | .controlCharacter => "Invalid control character at"
  | .badEscape => "Invalid \\escape"
  | .badNumberEscape => "Invalid \\uXXXX escape"

/-- Why a text is not read. A place counts the characters before it. -/
inductive Fault where
  | at (problem : Problem) (offset : Nat)
  | hugeInteger (digits : Nat)
  deriving DecidableEq, Repr

/-- An array or object that has begun; items and members stand last first, and an object has the
name of the member that is being read. -/
inductive Frame where
  | array (items : List Value)
  | object (members : OrderedMap String Value) (name : String)

inductive Want where
  | value
  | itemOrClose
  | nameOrClose
  | name
  | colon
  | commaOrClose
  | nothing (result : Value)

structure Reading where
  frames : List Frame := []
  want : Want := .value

namespace Reading

def complete (v : Value) : List Frame → Reading
  | [] => ⟨[], .nothing v⟩
  | .array items :: frames => ⟨.array (v :: items) :: frames, .commaOrClose⟩
  | .object members name :: frames => ⟨.object (members.put name v) name :: frames, .commaOrClose⟩

def stringFault (size left : Nat) : StringFault → Fault
  | .unterminated => .at .unterminatedString (size - left)
  | .controlCharacter l => .at .controlCharacter (size - l)
  | .badEscape l => .at .badEscape (size - l)
  | .badNumberEscape l => .at .badNumberEscape (size - l)

def value (size : Nat) (l : Lexeme) (frames : List Frame) : Except Fault Reading :=
  match l.token with
  | .openBrace => .ok ⟨.object .empty "" :: frames, .nameOrClose⟩
  | .openBracket => .ok ⟨.array [] :: frames, .itemOrClose⟩
  | .scalar v => .ok (complete v frames)
  | .string s => .ok (complete (.string s) frames)
  | .brokenString fault => .error (stringFault size l.left fault)
  | .hugeInteger digits => .error (.hugeInteger digits)
  | _ => .error (.at .expectedValue (size - l.left))

def name (size : Nat) (l : Lexeme) (frames : List Frame) : Except Fault Reading :=
  match l.token, frames with
  | .string s, .object members _ :: outer => .ok ⟨.object members s :: outer, .colon⟩
  | .brokenString fault, _ => .error (stringFault size l.left fault)
  | _, _ => .error (.at .expectedName (size - l.left))

def step (size : Nat) (r : Reading) (l : Lexeme) : Except Fault Reading :=
  let fail (p : Problem) : Except Fault Reading := .error (.at p (size - l.left))
  match r.want, l.token, r.frames with
  | .value, _, frames => value size l frames
  | .itemOrClose, .closeBracket, .array items :: outer => .ok (complete (.array items.reverse) outer)
  | .itemOrClose, _, frames => value size l frames
  | .nameOrClose, .closeBrace, .object members _ :: outer =>
    .ok (complete (.object members.entries) outer)
  | .nameOrClose, _, frames => name size l frames
  | .name, _, frames => name size l frames
  | .colon, .colon, frames => .ok ⟨frames, .value⟩
  | .colon, _, _ => fail .expectedColon
  | .commaOrClose, .comma, .array items :: outer => .ok ⟨.array items :: outer, .value⟩
  | .commaOrClose, .comma, .object members n :: outer => .ok ⟨.object members n :: outer, .name⟩
  | .commaOrClose, .closeBracket, .array items :: outer =>
    .ok (complete (.array items.reverse) outer)
  | .commaOrClose, .closeBrace, .object members _ :: outer =>
    .ok (complete (.object members.entries) outer)
  | .commaOrClose, _, _ => fail .expectedComma
  | .nothing v, .finish, frames => .ok ⟨frames, .nothing v⟩
  | .nothing _, _, _ => fail .extraData

def byteOrderMark : Char := '\uFEFF'

end Reading

def read (cs : List Char) : Except Fault Value :=
  if cs.head? = some Reading.byteOrderMark then .error (.at .byteOrderMark 0)
  else do
    let r ← (Token.scan cs).foldlM (Reading.step cs.length) ({} : Reading)
    match r.want with
    | .nothing v => .ok v
    | _ => .error (.at .expectedValue cs.length)

def read? (s : String) : Option Value := (read s.toList).toOption

def Fault.message (text : List Char) : Fault → String
  | .at problem offset =>
    let before := text.take offset
    let line := before.count '\n' + 1
    let column := (before.reverse.takeWhile (· != '\n')).length + 1
    s!"{problem.message}: line {line} column {column} (char {offset})"
  | .hugeInteger digits =>
    s!"Exceeds the limit ({Text.digitLimit} digits) for integer string conversion: value has " ++
      s!"{digits} digits; use sys.set_int_max_str_digits() to increase the limit"

end CollectionRun.Json
