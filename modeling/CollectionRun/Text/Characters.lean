/-! The layout of a template, of an environment file and of its keys ignores every blank; a
numeral is trimmed of white space only. Digits are those of every script, in runs of ten. -/

namespace CollectionRun.Text

/-- A blank: white space, or one of the information separators U+001C to U+001F. -/
def isBlank (c : Char) : Bool :=
  let n := c.toNat
  (0x9 ≤ n && n ≤ 0xD) || (0x1C ≤ n && n ≤ 0x20) || n == 0x85 || n == 0xA0 || n == 0x1680 ||
    (0x2000 ≤ n && n ≤ 0x200A) || n == 0x2028 || n == 0x2029 || n == 0x202F || n == 0x205F ||
    n == 0x3000

/-- White space as the Unicode property has it: a blank that is no information separator. -/
def isWhiteSpace (c : Char) : Bool :=
  isBlank c && !(0x1C ≤ c.toNat && c.toNat ≤ 0x1F)

def isInlineBlank (c : Char) : Bool := isBlank c && c != '\n' && c != '\r'

variable (p : Char → Bool)

def trimStartBy (cs : List Char) : List Char := cs.dropWhile p

def trimEndBy (cs : List Char) : List Char := (cs.reverse.dropWhile p).reverse

def trimBy (cs : List Char) : List Char := trimEndBy p (trimStartBy p cs)

def trimStart : List Char → List Char := trimStartBy isBlank

def trimEnd : List Char → List Char := trimEndBy isBlank

def trim : List Char → List Char := trimBy isBlank

theorem length_dropWhile_le (cs : List Char) : (cs.dropWhile p).length ≤ cs.length :=
  (List.dropWhile_sublist p).length_le

def digitZeros : List Nat :=
  [0x30, 0x660, 0x6F0, 0x7C0, 0x966, 0x9E6, 0xA66, 0xAE6, 0xB66, 0xBE6, 0xC66, 0xCE6, 0xD66,
    0xDE6, 0xE50, 0xED0, 0xF20, 0x1040, 0x1090, 0x17E0, 0x1810, 0x1946, 0x19D0, 0x1A80, 0x1A90,
    0x1B50, 0x1BB0, 0x1C40, 0x1C50, 0xA620, 0xA8D0, 0xA900, 0xA9D0, 0xA9F0, 0xAA50, 0xABF0,
    0xFF10, 0x104A0, 0x10D30, 0x11066, 0x110F0, 0x11136, 0x111D0, 0x112F0, 0x11450, 0x114D0,
    0x11650, 0x116C0, 0x11730, 0x118E0, 0x11950, 0x11C50, 0x11D50, 0x11DA0, 0x16A60, 0x16AC0,
    0x16B50, 0x1D7CE, 0x1D7D8, 0x1D7E2, 0x1D7EC, 0x1D7F6, 0x1E140, 0x1E2F0, 0x1E950, 0x1FBF0]

def isDecimalDigit (c : Char) : Bool :=
  digitZeros.any fun z => z ≤ c.toNat && c.toNat ≤ z + 9

def digitCount (n : Int) : Nat := (Nat.toDigits 10 n.natAbs).length

theorem digitCount_le_iff {n : Int} {k : Nat} (some : 0 < k) :
    digitCount n ≤ k ↔ n.natAbs < Nat.pow 10 k :=
  Nat.length_toDigits_le_iff (by decide) some

/-- An integer of more digits is neither written nor read from a text. -/
def digitLimit : Nat := 4300

def decimal? (n : Int) : Option String :=
  if digitCount n ≤ digitLimit then some (toString n) else none

theorem decimal?_eq_none_iff {n : Int} : decimal? n = none ↔ digitLimit < digitCount n := by
  unfold decimal?
  split
  next short => exact iff_of_false nofun (Nat.not_lt_of_le short)
  next long => exact iff_of_true rfl (Nat.lt_of_not_le long)

theorem eq_toString_of_decimal? {n : Int} {s : String} (h : decimal? n = some s) :
    s = toString n := by
  unfold decimal? at h
  split at h
  · exact (Option.some.inj h).symm
  · contradiction

end CollectionRun.Text
