/-! A line feed ends a line of octets. `cut` gives the lines that have ended and the octets after
the last line feed; a `LineBuffer` keeps those octets between two reads. -/

namespace CollectionRun.Text

def normalizeLineEnds : List Char → List Char
  | '\r' :: '\n' :: rest => '\n' :: normalizeLineEnds rest
  | '\r' :: rest => '\n' :: normalizeLineEnds rest
  | c :: rest => c :: normalizeLineEnds rest
  | [] => []

def lineFeed : UInt8 := 10

structure Cut where
  lines : List (List UInt8)
  rest : List UInt8
  deriving DecidableEq, Repr

def Cut.prepend (b : UInt8) (c : Cut) : Cut :=
  if b = lineFeed then ⟨[] :: c.lines, c.rest⟩
  else match c.lines with
    | [] => ⟨[], b :: c.rest⟩
    | line :: later => ⟨(b :: line) :: later, c.rest⟩

def cut (octets : List UInt8) : Cut := octets.foldr Cut.prepend ⟨[], []⟩

structure LineBuffer where
  pending : List UInt8 := []
  deriving DecidableEq, Repr

namespace LineBuffer

def push (buffer : LineBuffer) (chunk : List UInt8) : List (List UInt8) × LineBuffer :=
  let c := cut (buffer.pending ++ chunk)
  (c.lines, ⟨c.rest⟩)

/-- What the end of the octets makes of the last line: it counts unless it is empty. -/
def flush (buffer : LineBuffer) : List (List UInt8) :=
  if buffer.pending.isEmpty then [] else [buffer.pending]

end LineBuffer

@[simp] theorem cut_nil : cut [] = ⟨[], []⟩ := rfl

theorem cut_cons (b : UInt8) (octets : List UInt8) : cut (b :: octets) = (cut octets).prepend b := rfl

theorem lineFeed_notMem_rest (octets : List UInt8) : lineFeed ∉ (cut octets).rest := by
  induction octets with
  | nil => simp
  | cons b octets ih =>
    rw [cut_cons, Cut.prepend]
    split
    · exact ih
    · next h => split <;> simp_all [Ne.symm h]

end CollectionRun.Text
