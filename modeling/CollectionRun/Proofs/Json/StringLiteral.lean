import CollectionRun.Json.StringLiteral

/-! `Denotes` is the grammar of string literals. Each literal of it is decoded as what it denotes
(`decode?_of_denotes`). -/

namespace CollectionRun.Json.StringLiteral

def IsDigit (c : Char) (n : Nat) : Prop :=
  n < 16 ∧ (c = Nat.digitChar n ∨ c = (Nat.digitChar n).toUpper)

instance (c : Char) (n : Nat) : Decidable (IsDigit c n) :=
  inferInstanceAs (Decidable (_ ∧ _))

inductive FourDigits : List Char → Nat → Prop
  | mk {a b c d : Char} {k l m n : Nat} (first : IsDigit a k) (second : IsDigit b l)
      (third : IsDigit c m) (fourth : IsDigit d n) :
      FourDigits [a, b, c, d] (((k * 16 + l) * 16 + m) * 16 + n)

/-- The letters that stand for a character behind a backslash. -/
def letters : List (Char × Char) :=
  [('"', '"'), ('\\', '\\'), ('/', '/'), ('b', '\x08'), ('f', '\x0c'), ('n', '\n'), ('r', '\r'),
    ('t', '\t')]

/-- What stands behind the opening mark of a literal, and what it denotes. -/
inductive Spells : List Char → List Char → Prop
  | close : Spells ['"'] []
  | plain {c : Char} {cs v : List Char} (printable : 0x20 ≤ c.toNat) (mark : c ≠ '"')
      (escape : c ≠ '\\') (later : Spells cs v) : Spells (c :: cs) (c :: v)
  | letter {l c : Char} {cs v : List Char} (listed : (l, c) ∈ letters) (later : Spells cs v) :
      Spells ('\\' :: l :: cs) (c :: v)
  | number {c : Char} {digits cs v : List Char} (spelled : FourDigits digits c.toNat)
      (later : Spells cs v) : Spells ('\\' :: 'u' :: digits ++ cs) (c :: v)
  | halves {c : Char} {high low : Nat} {upper lower cs v : List Char}
      (first : FourDigits upper high) (second : FourDigits lower low)
      (isHigh : 0xD800 ≤ high ∧ high ≤ 0xDBFF) (isLow : 0xDC00 ≤ low ∧ low ≤ 0xDFFF)
      (joined : c.toNat = 0x10000 + (high - 0xD800) * 0x400 + (low - 0xDC00))
      (later : Spells cs v) :
      Spells ('\\' :: 'u' :: upper ++ '\\' :: 'u' :: lower ++ cs) (c :: v)

def Denotes (literal value : String) : Prop :=
  ∃ body, literal.toList = '"' :: body ∧ Spells body value.toList

theorem hexValue?_of_isDigit {c : Char} {n : Nat} (h : IsDigit c n) : hexValue? c = some n := by
  have every : ∀ n < 16, hexValue? (Nat.digitChar n) = some n ∧
      hexValue? (Nat.digitChar n).toUpper = some n := by decide
  obtain ⟨small, rfl | rfl⟩ := h
  · exact (every n small).1
  · exact (every n small).2

theorem fourHex?_of_fourDigits {digits : List Char} {n : Nat} (h : FourDigits digits n) :
    ∃ a b c d, digits = [a, b, c, d] ∧ fourHex? a b c d = some n := by
  cases h with
  | mk first second third fourth =>
    refine ⟨_, _, _, _, rfl, ?_⟩
    simp only [fourHex?, hexValue?_of_isDigit first, hexValue?_of_isDigit second,
      hexValue?_of_isDigit third, hexValue?_of_isDigit fourth, Option.bind_eq_bind,
      Option.bind_some, Option.pure_def]

theorem Spells.ne_nil {cs v : List Char} (h : Spells cs v) : cs ≠ [] := by
  cases h <;> simp

theorem readPieces_number {digits cs : List Char} {n : Nat} (spelled : FourDigits digits n)
    (more : cs ≠ []) :
    readPieces ('\\' :: 'u' :: digits ++ cs) = cons (.number n) (readPieces cs) := by
  obtain ⟨a, b, c, d, rfl, hex⟩ := fourHex?_of_fourDigits spelled
  obtain ⟨e, rest, rfl⟩ := List.exists_cons_of_ne_nil more
  show readPieces ('\\' :: 'u' :: a :: b :: c :: d :: e :: rest) = _
  rw [readPieces, hex]

theorem readPieces_letter {l c : Char} (listed : (l, c) ∈ letters) (cs : List Char) :
    readPieces ('\\' :: l :: cs) = cons (.plain c) (readPieces cs) := by
  simp only [letters, List.mem_cons, Prod.mk.injEq, List.not_mem_nil, or_false] at listed
  rcases listed with ⟨rfl, rfl⟩ | ⟨rfl, rfl⟩ | ⟨rfl, rfl⟩ | ⟨rfl, rfl⟩ | ⟨rfl, rfl⟩ | ⟨rfl, rfl⟩ |
    ⟨rfl, rfl⟩ | ⟨rfl, rfl⟩ <;> simp [readPieces, escaped?]

theorem readPieces_plain {c : Char} (printable : 0x20 ≤ c.toNat) (mark : c ≠ '"')
    (escape : c ≠ '\\') (cs : List Char) :
    readPieces (c :: cs) = cons (.plain c) (readPieces cs) := by
  rw [readPieces, if_neg (by omega)]
  · exact mark
  · intro same
    exact absurd same escape
  · intro _ _ _ _ _ _ same
    exact absurd same escape
  · intro _ same
    exact absurd same escape
  · intro _ _ same
    exact absurd same escape

theorem not_half (c : Char) : isHighHalf c.toNat = false ∧ isLowHalf c.toNat = false := by
  have valid : c.toNat < 0xD800 ∨ 0xDFFF < c.toNat ∧ c.toNat < 0x110000 := c.valid
  simp only [isHighHalf, isLowHalf, Bool.and_eq_false_iff, decide_eq_false_iff_not]
  omega

theorem single_toNat (c : Char) : single c.toNat = c := by
  obtain ⟨high, low⟩ := not_half c
  rw [single, high, low, if_neg (by simp), Char.ofNat_toNat]

theorem join_number {n : Nat} (whole : isHighHalf n = false) (ps : List Piece) :
    join (.number n :: ps) = single n :: join ps := by
  cases ps with
  | nil => rfl
  | cons p ps =>
    cases p with
    | plain c =>
      rw [join]
      simp
    | number low => rw [join, whole, Bool.false_and, if_neg (by simp)]

theorem readPieces_of_spells {cs v : List Char} (h : Spells cs v) :
    ∃ ps, readPieces cs = .ok (ps, []) ∧ join ps = v := by
  induction h with
  | close => exact ⟨[], rfl, rfl⟩
  | plain printable mark escape _ ih =>
    obtain ⟨ps, read, same⟩ := ih
    refine ⟨_, by rw [readPieces_plain printable mark escape, read]; rfl, ?_⟩
    rw [join, same]
  | letter listed _ ih =>
    obtain ⟨ps, read, same⟩ := ih
    refine ⟨_, by rw [readPieces_letter listed, read]; rfl, ?_⟩
    rw [join, same]
  | @number c digits cs v spelled later ih =>
    obtain ⟨ps, read, same⟩ := ih
    refine ⟨_, by rw [readPieces_number spelled later.ne_nil, read]; rfl, ?_⟩
    rw [join_number (not_half c).1, single_toNat, same]
  | @halves c high low upper lower cs v first second isHigh isLow joined later ih =>
    obtain ⟨ps, read, same⟩ := ih
    have both : readPieces ('\\' :: 'u' :: upper ++ '\\' :: 'u' :: lower ++ cs) =
        .ok (.number high :: .number low :: ps, []) := by
      have behind : '\\' :: 'u' :: lower ++ cs ≠ [] := List.cons_ne_nil _ _
      rw [List.append_assoc, readPieces_number first behind,
        readPieces_number second later.ne_nil, read]
      rfl
    have halves : (isHighHalf high && isLowHalf low) = true := by
      simp [isHighHalf, isLowHalf, isHigh, isLow]
    refine ⟨_, both, ?_⟩
    rw [join, if_pos halves, joinHalves, ← joined, Char.ofNat_toNat, same]

theorem decode?_of_denotes {literal value : String} (h : Denotes literal value) :
    decode? literal.toList = some value.toList := by
  obtain ⟨body, shape, inside⟩ := h
  obtain ⟨ps, read, same⟩ := readPieces_of_spells inside
  rw [shape, decode?, StringLiteral.read, read]
  simp [Except.map, same]

end CollectionRun.Json.StringLiteral
