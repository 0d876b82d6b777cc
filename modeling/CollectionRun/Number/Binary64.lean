namespace CollectionRun.Number

inductive Binary64 where
  | finite (negative : Bool) (significand : Nat) (exponent : Int)
  | infinite (negative : Bool)
  | nan
  deriving DecidableEq, Repr

def twoTo (k : Nat) : Nat := Nat.pow 2 k

def tenTo (k : Nat) : Nat := Nat.pow 10 k

namespace Binary64

/-- The quotient rounded to the nearest integer, a tie going to the even one. -/
def roundQuotient (n d : Nat) : Nat :=
  let q := n / d
  let twice := 2 * (n % d)
  if twice > d || (twice = d && q % 2 = 1) then q + 1 else q

def floorLog2 (n d : Nat) : Int :=
  let e : Int := (Nat.log2 n : Int) - Nat.log2 d
  if n * twoTo (-e).toNat < d * twoTo e.toNat then e - 1 else e

def leastExponent : Int := -1074

def greatestExponent : Int := 971

def nearest (negative : Bool) (n d : Nat) : Binary64 :=
  if n = 0 then .finite negative 0 leastExponent
  else
    let e := max (floorLog2 n d - 52) leastExponent
    let m := roundQuotient (n * twoTo (-e).toNat) (d * twoTo e.toNat)
    let (m, e) := if m = twoTo 53 then (twoTo 52, e + 1) else (m, e)
    if e > greatestExponent then .infinite negative else .finite negative m e

/-- The number nearest to `digits` times the `scale`-th power of ten. A decimal beyond the range
is settled by its number of digits, so that no huge power is computed. -/
def ofDecimal (negative : Bool) (digits : Nat) (scale : Int) : Binary64 :=
  let size : Int := Nat.log2 digits / 3 + 1
  if digits = 0 then .finite negative 0 leastExponent
  else if scale > 310 then .infinite negative
  else if scale + size < -330 then .finite negative 0 leastExponent
  else nearest negative (digits * tenTo scale.toNat) (tenTo (-scale).toNat)

def toInt? : Binary64 → Option Int
  | .finite negative m e =>
    let signed (n : Nat) : Int := if negative then -(n : Int) else n
    if 0 ≤ e then some (signed (m * twoTo e.toNat))
    else if m % twoTo (-e).toNat = 0 then some (signed (m / twoTo (-e).toNat))
    else none
  | _ => none

def isFinite : Binary64 → Bool
  | .finite _ _ _ => true
  | _ => false

end Binary64

end CollectionRun.Number
