/-! Two escapes that are the halves of one character beyond the basic plane stand for that
character; a half alone shows as U+FFFD. -/

namespace CollectionRun.Json

/-- What is wrong with a string literal. A place is the number of characters from there to the
end of the text. -/
inductive StringFault where
  | unterminated
  | controlCharacter (left : Nat)
  | badEscape (left : Nat)
  | badNumberEscape (left : Nat)
  deriving DecidableEq, Repr

namespace StringLiteral

def escaped? : Char → Option Char
  | '"' => some '"'
  | '\\' => some '\\'
  | '/' => some '/'
  | 'b' => some '\x08'
  | 'f' => some '\x0c'
  | 'n' => some '\n'
  | 'r' => some '\r'
  | 't' => some '\t'
  | _ => none

def hexValue? (c : Char) : Option Nat :=
  let n := c.toNat
  if '0'.toNat ≤ n && n ≤ '9'.toNat then some (n - '0'.toNat)
  else if 'a'.toNat ≤ n && n ≤ 'f'.toNat then some (n - 'a'.toNat + 10)
  else if 'A'.toNat ≤ n && n ≤ 'F'.toNat then some (n - 'A'.toNat + 10)
  else none

def fourHex? (a b c d : Char) : Option Nat := do
  let a ← hexValue? a
  let b ← hexValue? b
  let c ← hexValue? c
  let d ← hexValue? d
  return ((a * 16 + b) * 16 + c) * 16 + d

def isHighHalf (n : Nat) : Bool := 0xD800 ≤ n && n ≤ 0xDBFF

def isLowHalf (n : Nat) : Bool := 0xDC00 ≤ n && n ≤ 0xDFFF

def joinHalves (high low : Nat) : Char :=
  Char.ofNat (0x10000 + (high - 0xD800) * 0x400 + (low - 0xDC00))

def single (n : Nat) : Char :=
  if isHighHalf n || isLowHalf n then '\uFFFD' else Char.ofNat n

inductive Piece where
  | plain (c : Char)
  | number (n : Nat)
  deriving DecidableEq, Repr

def join : List Piece → List Char
  | [] => []
  | .number high :: .number low :: rest =>
    if isHighHalf high && isLowHalf low then joinHalves high low :: join rest
    else single high :: join (.number low :: rest)
  | .number n :: rest => single n :: join rest
  | .plain c :: rest => c :: join rest

def cons (p : Piece) (r : Except StringFault (List Piece × List Char)) :
    Except StringFault (List Piece × List Char) :=
  r.map fun (pieces, rest) => (p :: pieces, rest)

/-- Reads up to the closing mark, given what follows the opening one: the pieces of the literal,
and what follows it. A number escape is complete only when a character follows it. -/
def readPieces : List Char → Except StringFault (List Piece × List Char)
  | [] => .error .unterminated
  | '"' :: rest => .ok ([], rest)
  | ['\\'] => .error .unterminated
  | '\\' :: 'u' :: a :: b :: c :: d :: e :: rest =>
    match fourHex? a b c d with
    | some n => cons (.number n) (readPieces (e :: rest))
    | none => .error (.badNumberEscape (rest.length + 6))
  | '\\' :: 'u' :: rest => .error (.badNumberEscape (rest.length + 1))
  | '\\' :: c :: rest =>
    match escaped? c with
    | some e => cons (.plain e) (readPieces rest)
    | none => .error (.badEscape (rest.length + 2))
  | c :: rest =>
    if c.toNat < 0x20 then .error (.controlCharacter (rest.length + 1))
    else cons (.plain c) (readPieces rest)

def read (cs : List Char) : Except StringFault (List Char × List Char) :=
  (readPieces cs).map fun (pieces, rest) => (join pieces, rest)

def decode? (literal : List Char) : Option (List Char) :=
  match literal with
  | '"' :: body =>
    match read body with
    | .ok (text, []) => some text
    | _ => none
  | _ => none

theorem cons_eq_ok {p : Piece} {r : Except StringFault (List Piece × List Char)}
    {ps : List Piece} {rest : List Char} (h : cons p r = .ok (ps, rest)) :
    ∃ qs, r = .ok (qs, rest) ∧ ps = p :: qs := by
  cases r with
  | error e => simp [cons, Except.map] at h
  | ok pair =>
    obtain ⟨qs, r⟩ := pair
    simp only [cons, Except.map, Except.ok.injEq, Prod.mk.injEq] at h
    exact ⟨qs, by rw [h.2], h.1.symm⟩

theorem length_of_readPieces {cs : List Char} {ps : List Piece} {rest : List Char}
    (h : readPieces cs = .ok (ps, rest)) : rest.length < cs.length := by
  fun_induction readPieces cs generalizing ps rest with
  | case1 | case3 | case5 | case6 | case8 | case9 => simp at h
  | case2 r => simp only [Except.ok.injEq, Prod.mk.injEq] at h; simp [h.2]
  | case4 a b c d e r n hn ih =>
    obtain ⟨qs, hr, -⟩ := cons_eq_ok h
    have := ih hr
    simp only [List.length_cons] at this ⊢
    omega
  | case7 c r _ _ e he ih =>
    obtain ⟨qs, hr, -⟩ := cons_eq_ok h
    have := ih hr
    simp only [List.length_cons] at this ⊢
    omega
  | case10 =>
    rename_i ih
    obtain ⟨qs, hr, -⟩ := cons_eq_ok h
    have := ih hr
    simp only [List.length_cons] at this ⊢
    omega

theorem length_of_read {cs text rest : List Char} (h : read cs = .ok (text, rest)) :
    rest.length < cs.length := by
  unfold read at h
  cases hr : readPieces cs with
  | error e => simp [hr, Except.map] at h
  | ok pair =>
    obtain ⟨ps, r⟩ := pair
    simp only [hr, Except.map, Except.ok.injEq, Prod.mk.injEq] at h
    exact h.2 ▸ length_of_readPieces hr

end StringLiteral

end CollectionRun.Json
