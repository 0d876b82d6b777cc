/-! Octets are read into pieces: a character, or a maximal run of octets that starts a character
and cannot go on. The reader is a one-octet state machine, so text may arrive in any cut:
`read_append`. -/

namespace CollectionRun.Text.Utf8

inductive Problem where
  | startOctet
  | continuationOctet
  | endOfData
  deriving DecidableEq, Repr

def Problem.message : Problem → String
  | .startOctet => "invalid start byte"
  | .continuationOctet => "invalid continuation byte"
  | .endOfData => "unexpected end of data"

inductive Piece where
  | char (c : Char)
  | illFormed (octets : List UInt8) (problem : Problem)
  deriving DecidableEq, Repr

def Piece.shown : Piece → Char
  | .char c => c
  | .illFormed _ _ => '\uFFFD'

def Piece.size : Piece → Nat
  | .char c => c.utf8Size
  | .illFormed octets _ => octets.length

/-- A character that has begun: its octets so far, its bits so far, how many octets are owed and
between which bounds the next one lies. -/
structure Begun where
  octets : List UInt8
  bits : Nat
  owed : Nat
  low : Nat
  high : Nat
  deriving DecidableEq, Repr

def start (b : UInt8) : List Piece × Option Begun :=
  let n := b.toNat
  let begun (bits owed low high : Nat) := ([], some ⟨[b], bits, owed, low, high⟩)
  if n < 0x80 then ([.char (Char.ofNat n)], none)
  else if n < 0xC2 then ([.illFormed [b] .startOctet], none)
  else if n < 0xE0 then begun (n - 0xC0) 1 0x80 0xBF
  else if n = 0xE0 then begun 0 2 0xA0 0xBF
  else if n = 0xED then begun 13 2 0x80 0x9F
  else if n < 0xF0 then begun (n - 0xE0) 2 0x80 0xBF
  else if n = 0xF0 then begun 0 3 0x90 0xBF
  else if n < 0xF4 then begun (n - 0xF0) 3 0x80 0xBF
  else if n = 0xF4 then begun 4 3 0x80 0x8F
  else ([.illFormed [b] .startOctet], none)

def step (state : Option Begun) (b : UInt8) : List Piece × Option Begun :=
  match state with
  | none => start b
  | some s =>
    if s.low ≤ b.toNat && b.toNat ≤ s.high then
      let bits := s.bits * 64 + (b.toNat - 0x80)
      if s.owed = 1 then ([.char (Char.ofNat bits)], none)
      else ([], some ⟨s.octets ++ [b], bits, s.owed - 1, 0x80, 0xBF⟩)
    else (.illFormed s.octets .continuationOctet :: (start b).1, (start b).2)

def finish : Option Begun → List Piece
  | none => []
  | some s => [.illFormed s.octets .endOfData]

/-- The reader between two octets; the pieces read so far stand last first. -/
structure Reader where
  pieces : List Piece := []
  state : Option Begun := none
  deriving Repr

def Reader.feed (r : Reader) (b : UInt8) : Reader :=
  let (read, state) := step r.state b
  ⟨read.reverse ++ r.pieces, state⟩

def Reader.read (r : Reader) (octets : List UInt8) : Reader := octets.foldl Reader.feed r

def pieces (octets : List UInt8) : List Piece :=
  let r := ({} : Reader).read octets
  r.pieces.reverse ++ finish r.state

def decodeLossy (octets : List UInt8) : List Char := (pieces octets).map Piece.shown

structure Fault where
  offset : Nat
  octets : List UInt8
  problem : Problem
  deriving DecidableEq, Repr

def firstFault (offset : Nat) : List Piece → Option Fault
  | [] => none
  | .illFormed octets problem :: _ => some ⟨offset, octets, problem⟩
  | p :: rest => firstFault (offset + p.size) rest

def decode? (octets : List UInt8) : Except Fault (List Char) :=
  match firstFault 0 (pieces octets) with
  | some fault => .error fault
  | none => .ok (decodeLossy octets)

def encode (cs : List Char) : List UInt8 := cs.flatMap String.utf8EncodeChar

def octetsOf (s : String) : List UInt8 := encode s.toList

theorem read_append (r : Reader) (a b : List UInt8) : r.read (a ++ b) = (r.read a).read b :=
  List.foldl_append

end CollectionRun.Text.Utf8
