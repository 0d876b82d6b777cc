import CollectionRun.Text.Characters

/-! The value of a `NAME=value` statement stands bare up to the end of its line, or in single or
double quotes, where it may span lines. A statement that does not fit is dropped with the rest of
its line. -/

namespace CollectionRun.EnvFile

open Text

/-- What a statement says; a name without `=` has no value. -/
inductive Content where
  | binding (name : List Char) (value : Option (List Char))
  | comment
  | unreadable
  deriving DecidableEq, Repr

def endsLine (c : Char) : Bool := c = '\n' || c = '\r'

def afterLineEnd : List Char → List Char
  | '\r' :: '\n' :: rest => rest
  | _ :: rest => rest
  | [] => []

def dropLine (cs : List Char) : List Char := afterLineEnd (cs.dropWhile (!endsLine ·))

def dropBlanks (cs : List Char) : List Char := cs.dropWhile isInlineBlank

def skipExport (cs : List Char) : List Char :=
  match cs with
  | 'e' :: 'x' :: 'p' :: 'o' :: 'r' :: 't' :: c :: rest =>
    if isInlineBlank c then dropBlanks rest else cs
  | _ => cs

def isNameChar (c : Char) : Bool := c != '=' && c != '#' && !isBlank c

/-- Part of a statement and what follows it, or what is left where the part does not fit. -/
abbrev Step (α : Type) := Except (List Char) (α × List Char)

def readName (cs : List Char) : Step (Option (List Char)) :=
  match cs with
  | '#' :: _ => .ok (none, cs)
  | '\'' :: rest =>
    let name := rest.takeWhile (· != '\'')
    match rest.dropWhile (· != '\'') with
    | _ :: after => if name.isEmpty then .error cs else .ok (some name, after)
    | [] => .error cs
  | _ =>
    let name := cs.takeWhile isNameChar
    if name.isEmpty then .error cs else .ok (some name, cs.dropWhile isNameChar)

/-- The text up to the closing `mark`, and what follows it. A backslash takes the character
behind it along, so that a mark there does not close. -/
def upToMark (mark : Char) : List Char → Option (List Char × List Char)
  | [] => none
  | '\\' :: c :: rest => (upToMark mark rest).map fun (text, after) => ('\\' :: c :: text, after)
  | c :: rest =>
    if c = mark then some ([], rest)
    else (upToMark mark rest).map fun (text, after) => (c :: text, after)

def singleEscape : Char → Option Char
  | '\\' => some '\\'
  | '\'' => some '\''
  | _ => none

def doubleEscape : Char → Option Char
  | '\\' => some '\\'
  | '\'' => some '\''
  | '"' => some '"'
  | 'a' => some '\x07'
  | 'b' => some '\x08'
  | 'f' => some '\x0c'
  | 'n' => some '\n'
  | 'r' => some '\r'
  | 't' => some '\t'
  | 'v' => some '\x0b'
  | _ => none

def unescape (escape : Char → Option Char) : List Char → List Char
  | '\\' :: c :: rest =>
    match escape c with
    | some e => e :: unescape escape rest
    | none => '\\' :: unescape escape (c :: rest)
  | c :: rest => c :: unescape escape rest
  | [] => []

/-- Drops the first run of blanks before a `#`, and all after it. -/
def dropComment : List Char → List Char
  | [] => []
  | c :: rest =>
    if isBlank c && (rest.dropWhile isBlank).head? = some '#' then [] else c :: dropComment rest

def readValue (spaced : Bool) (cs : List Char) : Step (List Char) :=
  match cs with
  | '\'' :: rest =>
    match upToMark '\'' rest with
    | some (text, after) => .ok (unescape singleEscape text, after)
    | none => .error cs
  | '"' :: rest =>
    match upToMark '"' rest with
    | some (text, after) => .ok (unescape doubleEscape text, after)
    | none => .error cs
  | _ =>
    if spaced && cs.head? = some '#' then .ok ([], cs)
    else .ok (trimEnd (dropComment (cs.takeWhile (!endsLine ·))), cs.dropWhile (!endsLine ·))

def skipComment (cs : List Char) : List Char :=
  match dropBlanks cs with
  | '#' :: rest => rest.dropWhile (!endsLine ·)
  | _ => cs

def finish (content : Content) (cs : List Char) : Step Content :=
  let rest := dropBlanks (skipComment cs)
  match rest with
  | [] => .ok (content, [])
  | c :: _ => if endsLine c then .ok (content, afterLineEnd rest) else .error cs

def readContent (cs : List Char) : Except (List Char) (Content × List Char) := do
  let (name, rest) ← readName (skipExport cs)
  match name, dropBlanks rest with
  | some name, '=' :: rest =>
    let (value, rest) ← readValue (rest.head?.any isInlineBlank) (dropBlanks rest)
    finish (.binding name (some value)) rest
  | some name, rest => finish (.binding name none) rest
  | none, rest => finish .comment rest

def readStatement (cs : List Char) : Content × List Char :=
  let start := cs.dropWhile isBlank
  if start.isEmpty then (.comment, [])
  else
    match readContent start with
    | .ok found => found
    | .error rest => (.unreadable, dropLine rest)

end CollectionRun.EnvFile
