import CollectionRun.Number.Binary64

/-! A floating-point number is written with the fewest digits that read back as the same number,
and of those with the nearest. -/

namespace CollectionRun.Number

structure Decimal where
  digits : Nat
  scale : Int
  deriving DecidableEq, Repr

namespace Decimal

def compareScaled (a : Nat) (p : Int) (b : Nat) (r : Int) : Ordering :=
  compare (a * tenTo p.toNat * twoTo (-r).toNat) (b * twoTo r.toNat * tenTo (-p).toNat)

/-- Whether the decimal lies among the reals that round to `m · 2^e`. In units of a quarter of
2^e they reach from `4m - 2` (from `4m - 1` at a power of two above the least) to `4m + 2`; the
ends belong to an even significand. -/
def readsBackAs (d : Decimal) (m : Nat) (e : Int) : Bool :=
  let low := if m = twoTo 52 && e > Binary64.leastExponent then 4 * m - 1 else 4 * m - 2
  let above := compareScaled d.digits d.scale low (e - 2)
  let below := compareScaled d.digits d.scale (4 * m + 2) (e - 2)
  (above == .gt && below == .lt) || (m % 2 == 0 && (above == .eq || below == .eq))

def floorLog10 (n d : Nat) : Int :=
  let t : Int := (Nat.toDigits 10 n).length - (Nat.toDigits 10 d).length
  if n * tenTo (-t).toNat < d * tenTo t.toNat then t - 1 else t

/-- Of the decimals with `count` digits next to `m · 2^e`, the nearest that reads back. -/
def ofDigitCount (m : Nat) (e : Int) (count : Nat) : Option Decimal :=
  let n := m * twoTo e.toNat
  let d := twoTo (-e).toNat
  let scale := floorLog10 n d - count + 1
  let n' := n * tenTo (-scale).toNat
  let d' := d * tenTo scale.toNat
  let down : Decimal := ⟨n' / d', scale⟩
  let up : Decimal := ⟨n' / d' + 1, scale⟩
  let (first, second) :=
    if Binary64.roundQuotient n' d' = n' / d' then (down, up) else (up, down)
  if first.readsBackAs m e then some first
  else if second.readsBackAs m e then some second
  else none

def shortest (m : Nat) (e : Int) : Decimal :=
  ((List.range 17).findSome? fun k => ofDigitCount m e (k + 1)).getD ⟨m, 0⟩

def dropTrailingZeros (cs : List Char) : List Char := (cs.reverse.dropWhile (· == '0')).reverse

def exponentDigits (n : Nat) : List Char :=
  if n < 10 then '0' :: Nat.toDigits 10 n else Nat.toDigits 10 n

def text (d : Decimal) : List Char :=
  let written := Nat.toDigits 10 d.digits
  let lead : Int := d.scale + written.length - 1
  let significant := dropTrailingZeros written
  if -4 ≤ lead && lead < 16 then
    if lead < 0 then '0' :: '.' :: List.replicate (-lead - 1).toNat '0' ++ significant
    else
      let whole := lead.toNat + 1
      let padded := significant ++ List.replicate (whole - significant.length) '0'
      let fraction := padded.drop whole
      padded.take whole ++ '.' :: (if fraction.isEmpty then ['0'] else fraction)
  else
    let mantissa := match significant with
      | [] => ['0']
      | [c] => [c]
      | c :: more => c :: '.' :: more
    let sign := if lead < 0 then '-' else '+'
    mantissa ++ 'e' :: sign :: exponentDigits lead.natAbs

end Decimal

def Binary64.text (x : Binary64) : String :=
  let signed (negative : Bool) (s : String) := if negative then "-" ++ s else s
  match x with
  | .nan => "nan"
  | .infinite negative => signed negative "inf"
  | .finite negative 0 _ => signed negative "0.0"
  | .finite negative m e => signed negative (String.ofList (Decimal.shortest m e).text)

end CollectionRun.Number
