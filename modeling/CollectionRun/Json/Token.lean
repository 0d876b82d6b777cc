import CollectionRun.Json.StringLiteral
import CollectionRun.Json.Value
import CollectionRun.Text.Characters

/-! Where no token starts the list ends with `junk`. A string literal that cannot be read, or an
integer of too many digits, becomes a token of its own: whether it matters is for the reader to
say, which may have wanted something else at that place. -/

namespace CollectionRun.Json

open CollectionRun.Number

inductive Token where
  | openBrace
  | closeBrace
  | openBracket
  | closeBracket
  | comma
  | colon
  | scalar (v : Value)
  | string (s : String)
  | brokenString (fault : StringFault)
  | hugeInteger (digits : Nat)
  | junk
  | finish
  deriving Repr

structure Lexeme where
  token : Token
  text : List Char
  deriving Repr

def Lexeme.left (l : Lexeme) : Nat := l.text.length

namespace Token

def isSpace (c : Char) : Bool := c = ' ' || c = '\t' || c = '\n' || c = '\r'

def decimalValue (digits : List Char) : Nat :=
  digits.foldl (fun n c => 10 * n + (c.toNat - '0'.toNat)) 0

def fraction (cs : List Char) : List Char × List Char :=
  match cs with
  | '.' :: rest =>
    let digits := rest.takeWhile Char.isDigit
    if digits.isEmpty then ([], cs) else (digits, rest.dropWhile Char.isDigit)
  | _ => ([], cs)

def exponent (cs : List Char) : Option Int × List Char :=
  let read (negative : Bool) (rest : List Char) : Option Int × List Char :=
    let digits := rest.takeWhile Char.isDigit
    let n : Int := decimalValue digits
    if digits.isEmpty then (none, cs)
    else (some (if negative then -n else n), rest.dropWhile Char.isDigit)
  match cs with
  | e :: '-' :: rest => if e = 'e' || e = 'E' then read true rest else (none, cs)
  | e :: '+' :: rest => if e = 'e' || e = 'E' then read false rest else (none, cs)
  | e :: rest => if e = 'e' || e = 'E' then read false rest else (none, cs)
  | [] => (none, cs)

/-- The digits before the point: a zero alone, or digits that do not start with one. -/
def whole (cs : List Char) : List Char × List Char :=
  match cs with
  | '0' :: rest => (['0'], rest)
  | _ => (cs.takeWhile Char.isDigit, cs.dropWhile Char.isDigit)

def number? (negative : Bool) (cs : List Char) : Option (Token × List Char) :=
  let (digits, rest) := whole cs
  let (places, rest') := fraction rest
  let (power, rest'') := exponent rest'
  if digits.isEmpty then none
  else if places.isEmpty && power.isNone then
    let n : Int := decimalValue digits
    if digits.length > Text.digitLimit then some (.hugeInteger digits.length, rest)
    else some (.scalar (.integer (if negative then -n else n)), rest)
  else
    let scale := power.getD 0 - places.length
    some (.scalar (.decimal (.ofDecimal negative (decimalValue (digits ++ places)) scale)), rest'')

def after? (word : String) (cs : List Char) : Option (List Char) :=
  if word.toList.isPrefixOf cs then some (cs.drop word.length) else none

def words : List (String × Value) :=
  [("null", .null), ("true", .bool true), ("false", .bool false), ("NaN", .decimal .nan),
    ("Infinity", .decimal (.infinite false)), ("-Infinity", .decimal (.infinite true))]

def word? (cs : List Char) : Option (Token × List Char) :=
  words.findSome? fun (word, v) => (after? word cs).map fun rest => (.scalar v, rest)

/-- The token that starts with `c`, and what follows it; nothing follows a token that ends the
reading. -/
def first (c : Char) (rest : List Char) : Token × List Char :=
  if c = '\x7b' then (.openBrace, rest)
  else if c = '\x7d' then (.closeBrace, rest)
  else if c = '[' then (.openBracket, rest)
  else if c = ']' then (.closeBracket, rest)
  else if c = ',' then (.comma, rest)
  else if c = ':' then (.colon, rest)
  else if c = '"' then
    match StringLiteral.read rest with
    | .ok (text, rest') => (.string (String.ofList text), rest')
    | .error fault => (.brokenString fault, [])
  else
    match word? (c :: rest) with
    | some found => found
    | none =>
      (if c = '-' then number? true rest else number? false (c :: rest)).getD (.junk, [])

theorem length_fraction_le (cs : List Char) : (fraction cs).2.length ≤ cs.length := by
  unfold fraction
  split
  · dsimp only
    split
    · exact Nat.le_refl _
    · exact Nat.le_succ_of_le (List.dropWhile_sublist _).length_le
  · exact Nat.le_refl _

theorem length_exponent_le (cs : List Char) : (exponent cs).2.length ≤ cs.length := by
  have read (d : List Char) (n : Option Int) {r : List Char} (h : r.length ≤ cs.length) :
      (if d.isEmpty then (none, cs) else (n, r.dropWhile Char.isDigit)).2.length ≤ cs.length := by
    split
    · exact Nat.le_refl _
    · exact Nat.le_trans (List.dropWhile_sublist _).length_le h
  unfold exponent
  dsimp only
  split
  · split
    · exact read _ _ (by simp; omega)
    · exact Nat.le_refl _
  · split
    · exact read _ _ (by simp; omega)
    · exact Nat.le_refl _
  · split
    · exact read _ _ (by simp)
    · exact Nat.le_refl _
  · exact Nat.le_refl _

theorem length_whole_lt {cs : List Char} (h : (whole cs).1.isEmpty = false) :
    (whole cs).2.length < cs.length := by
  unfold whole at h ⊢
  split
  · simp
  · rename_i hz
    have hs : cs.takeWhile Char.isDigit ++ cs.dropWhile Char.isDigit = cs :=
      List.takeWhile_append_dropWhile
    have hl := congrArg List.length hs
    rw [List.length_append] at hl
    have : 0 < (cs.takeWhile Char.isDigit).length := by
      cases ht : cs.takeWhile Char.isDigit with
      | nil => simp [ht] at h
      | cons => simp
    dsimp only
    omega

theorem length_number_lt {negative : Bool} {cs rest : List Char} {t : Token}
    (h : number? negative cs = some (t, rest)) : rest.length < cs.length := by
  unfold number? at h
  dsimp only at h
  have hf := length_fraction_le (whole cs).2
  have he := length_exponent_le (fraction (whole cs).2).2
  split at h
  · cases h
  · rename_i hd
    have hw := length_whole_lt (Bool.eq_false_iff.2 hd)
    split at h
    · split at h <;> (cases h; exact hw)
    · cases h
      omega

theorem length_after_lt {word : String} {cs rest : List Char} (hw : 0 < word.length)
    (h : after? word cs = some rest) : rest.length < cs.length := by
  unfold after? at h
  split at h
  · rename_i hp
    cases h
    have := (List.isPrefixOf_iff_prefix.1 hp).length_le
    rw [String.length_toList] at this
    rw [List.length_drop]
    omega
  · cases h

theorem length_word_lt {cs rest : List Char} {t : Token} (h : word? cs = some (t, rest)) :
    rest.length < cs.length := by
  obtain ⟨⟨word, v⟩, hm, hw⟩ := List.exists_of_findSome?_eq_some h
  obtain ⟨r, hr, he⟩ := Option.map_eq_some_iff.1 hw
  cases he
  have positive : ∀ w ∈ words, 0 < w.1.length := by decide
  exact length_after_lt (positive _ hm) hr

theorem length_first_le (c : Char) (cs : List Char) : (first c cs).2.length ≤ cs.length := by
  unfold first
  iterate 6
    split
    · exact Nat.le_refl _
  split
  · split
    · rename_i hr
      exact Nat.le_of_lt (StringLiteral.length_of_read hr)
    · exact Nat.zero_le _
  · split
    · rename_i found hw
      exact Nat.le_of_lt_succ (length_word_lt hw)
    · split
      · cases hn : number? true cs with
        | none => simp
        | some r => exact Nat.le_of_lt (length_number_lt hn)
      · cases hn : number? false (c :: cs) with
        | none => simp
        | some r => exact Nat.le_of_lt_succ (length_number_lt hn)

def scan (cs : List Char) : List Lexeme :=
  match cs with
  | [] => [⟨.finish, []⟩]
  | c :: rest =>
    if isSpace c then scan rest
    else ⟨(first c rest).1, c :: rest⟩ :: scan (first c rest).2
termination_by cs.length
decreasing_by
  · simp
  · exact Nat.lt_succ_of_le (length_first_le c rest)

end Token

end CollectionRun.Json
