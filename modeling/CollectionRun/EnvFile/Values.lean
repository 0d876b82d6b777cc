import CollectionRun.EnvFile.Progress
import CollectionRun.OrderedMap
import CollectionRun.Text.Lines

namespace CollectionRun.EnvFile

open Text

structure Statement where
  text : List Char
  content : Content
  deriving DecidableEq, Repr

def statementsOf (cs : List Char) : List Statement :=
  if cs = [] then []
  else ⟨cs, (readStatement cs).1⟩ :: statementsOf (readStatement cs).2
termination_by cs.length
decreasing_by exact length_readStatement_lt (by assumption)

def dropByteOrderMark : List Char → List Char
  | '\uFEFF' :: rest => rest
  | cs => cs

/-- The text of a file as it is read: without a byte order mark, each line end one line feed. -/
def fileText (text : String) : List Char := normalizeLineEnds (dropByteOrderMark text.toList)

def statements (text : String) : List Statement := statementsOf (fileText text)

def Statement.line (file : List Char) (s : Statement) : Nat :=
  1 + (file.count '\n' - s.text.count '\n')

def unreadableLines (text : String) : List Nat :=
  ((statements text).filter (·.content = .unreadable)).map (Statement.line (fileText text))

inductive Atom where
  | char (c : Char)
  | variable (name : List Char) (default? : Option (List Char))
  deriving DecidableEq, Repr

def reference? (cs : List Char) : Option (Atom × List Char) :=
  let inName (c : Char) : Bool := c != '\x7d' && c != ':'
  let name := cs.takeWhile inName
  match cs.dropWhile inName with
  | ':' :: '-' :: rest =>
    let text := rest.takeWhile (· != '\x7d')
    match rest.dropWhile (· != '\x7d') with
    | _ :: after => some (.variable name (some text), after)
    | [] => none
  | '\x7d' :: rest => some (.variable name none, rest)
  | _ => none

theorem length_reference_lt {cs after : List Char} {a : Atom}
    (h : reference? cs = some (a, after)) : after.length < cs.length := by
  unfold reference? at h
  dsimp only at h
  split at h
  · next rest hd =>
    have hl := length_dropWhile_le (fun c => c != '\x7d' && c != ':') cs
    rw [hd] at hl
    split at h
    · next he =>
      cases h
      have hr := length_dropWhile_le (· != '\x7d') rest
      rw [he] at hr
      simp at hl hr
      omega
    · cases h
  · next rest hd =>
    cases h
    have hl := length_dropWhile_le (fun c => c != '\x7d' && c != ':') cs
    rw [hd] at hl
    simp at hl
    omega
  · cases h

def atoms (cs : List Char) : List Atom :=
  match cs with
  | [] => []
  | '$' :: '\x7b' :: rest =>
    match _h : reference? rest with
    | some (a, after) => a :: atoms after
    | none => .char '$' :: atoms ('\x7b' :: rest)
  | c :: rest => .char c :: atoms rest
termination_by cs.length
decreasing_by
  · have := length_reference_lt _h; simp; omega
  · simp
  · simp

/-- What an atom stands for where `values` is searched before `env`; a variable without a value
counts as empty. -/
def Atom.resolve (values : OrderedMap String (Option String)) (env : Environment) : Atom → List Char
  | .char c => [c]
  | .variable name default? =>
    match values.get? (String.ofList name) with
    | some v => (v.getD "").toList
    | none =>
      match env.get? (String.ofList name) with
      | some v => v.toList
      | none => default?.getD []

def values (text : String) (env : Environment) : OrderedMap String (Option String) :=
  (statements text).foldl (fun known s =>
    match s.content with
    | .binding name value? =>
      let resolved := value?.map fun v =>
        String.ofList ((atoms v).flatMap (Atom.resolve known env))
      known.put (String.ofList name) resolved
    | _ => known) .empty

end CollectionRun.EnvFile
