import CollectionRun.Template.Basic
import CollectionRun.Text.Characters

namespace CollectionRun.Template

open Text

inductive Lexeme where
  | quoted (spelling : List Char)
  | raw (content : List Char)
  | chain (names : List (List Char))
  | word (name : List Char)
  | pipe
  | unexpected (c : Char)
  deriving DecidableEq, Repr

namespace Lexeme

def startsName (c : Char) : Bool := c.isAlpha || c = '_'

def isNameChar (c : Char) : Bool := startsName c || c.isDigit

/-- A double-quoted piece from behind its opening mark, and what follows it. It holds no line
feed, not even behind a backslash. -/
def upToQuote : List Char → Option (List Char × List Char)
  | [] => none
  | '"' :: rest => some (['"'], rest)
  | '\\' :: c :: rest =>
    if c = '\n' then none
    else (upToQuote rest).map fun (piece, after) => ('\\' :: c :: piece, after)
  | c :: rest =>
    if c = '\n' then none else (upToQuote rest).map fun (piece, after) => (c :: piece, after)

def upToBackQuote (cs : List Char) : Option (List Char × List Char) :=
  match cs.dropWhile (· != '\x60') with
  | [] => none
  | _ :: after => some (cs.takeWhile (· != '\x60'), after)

def chainNames (cs : List Char) : List (List Char) × List Char :=
  match cs with
  | '.' :: c :: rest =>
    if startsName c then
      let (names, after) := chainNames (rest.dropWhile isNameChar)
      ((c :: rest.takeWhile isNameChar) :: names, after)
    else ([], cs)
  | _ => ([], cs)
termination_by cs.length
decreasing_by
  have := length_dropWhile_le isNameChar rest
  simp
  omega

def first (c : Char) (rest : List Char) : Lexeme × List Char :=
  if c = '"' then
    match upToQuote rest with
    | some (piece, after) => (.quoted (c :: piece), after)
    | none => (.unexpected c, [])
  else if c = '\x60' then
    match upToBackQuote rest with
    | some (content, after) => (.raw content, after)
    | none => (.unexpected c, [])
  else if c = '.' then
    match chainNames (c :: rest) with
    | ([], _) => (.chain [], rest)
    | (names, after) => (.chain names, after)
  else if startsName c then (.word (c :: rest.takeWhile isNameChar), rest.dropWhile isNameChar)
  else if c = '|' then (.pipe, rest)
  else (.unexpected c, [])

theorem length_upToQuote_lt {cs piece after : List Char} (h : upToQuote cs = some (piece, after)) :
    after.length < cs.length := by
  fun_induction upToQuote cs generalizing piece after with
  | case1 => cases h
  | case2 => cases h; simp
  | case3 => cases h
  | case4 c rest _ ih =>
    obtain ⟨⟨p, a⟩, hp, he⟩ := Option.map_eq_some_iff.1 h
    cases he
    have := ih hp
    simp; omega
  | case5 => cases h
  | case6 =>
    rename_i ih
    obtain ⟨⟨p, a⟩, hp, he⟩ := Option.map_eq_some_iff.1 h
    cases he
    have := ih hp
    simp; omega

theorem length_upToBackQuote_lt {cs content after : List Char}
    (h : upToBackQuote cs = some (content, after)) : after.length < cs.length := by
  have hl := length_dropWhile_le (· != '\x60') cs
  unfold upToBackQuote at h
  split at h
  · cases h
  · next hd =>
    cases h
    rw [hd] at hl
    simp at hl
    omega

theorem length_chainNames_le (cs : List Char) : (chainNames cs).2.length ≤ cs.length := by
  fun_induction chainNames cs with
  | case1 c rest _ names after he ih =>
    have := length_dropWhile_le isNameChar rest
    rw [he] at ih
    simp at ih ⊢
    omega
  | case2 => exact Nat.le_refl _
  | case3 => exact Nat.le_refl _

theorem length_chainNames_lt {cs after : List Char} {name : List Char} {names : List (List Char)}
    (h : chainNames cs = (name :: names, after)) : after.length + 1 < cs.length := by
  unfold chainNames at h
  split at h
  · next c rest =>
    split at h
    · cases h
      have h₁ := length_chainNames_le (rest.dropWhile isNameChar)
      have h₂ := length_dropWhile_le isNameChar rest
      simp
      omega
    · cases h
  · cases h

theorem length_first_le (c : Char) (cs : List Char) : (first c cs).2.length ≤ cs.length := by
  unfold first
  split
  · split
    · next h => exact Nat.le_of_lt (length_upToQuote_lt h)
    · exact Nat.zero_le _
  · split
    · split
      · next h => exact Nat.le_of_lt (length_upToBackQuote_lt h)
      · exact Nat.zero_le _
    · split
      · split
        · exact Nat.le_refl _
        · next names after hn h =>
          cases names with
          | nil => exact (hn rfl).elim
          | cons name names =>
            have := length_chainNames_lt h
            simp at this ⊢
            omega
      · split
        · exact length_dropWhile_le _ _
        · split
          · exact Nat.le_refl _
          · exact Nat.zero_le _

end Lexeme

def lexemes (cs : List Char) : List Lexeme :=
  match cs with
  | [] => []
  | c :: rest =>
    if isBlank c then lexemes rest
    else (Lexeme.first c rest).1 :: lexemes (Lexeme.first c rest).2
termination_by cs.length
decreasing_by
  · simp
  · exact Nat.lt_succ_of_le (Lexeme.length_first_le c rest)

end CollectionRun.Template
