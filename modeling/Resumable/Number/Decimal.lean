import Resumable.Number.Double

/-!
# Shortest decimal text

A double is written with the fewest digits that read back as the same number. The reals that
round to it form an interval; on the coarsest decimal grid with a point in that interval, the
point nearest to the number is taken, and the upper one of two that are equally near.

Numbers are written positionally, however large or small they are.

## Main definitions

* `RoundingInterval`: the reals that round to a number.
* `shortest`: the decimal of a positive number.
* `floatText`: the text of a float.
-/

namespace Resumable

/-- The number `digits * 10 ^ exponent`. -/
structure Decimal where
  digits : Nat
  exponent : Int
  deriving DecidableEq, Repr

/-- The reals that round to a number, all in units of `2 ^ exponent`. -/
structure RoundingInterval where
  center : Nat
  low : Nat
  high : Nat
  exponent : Int
  /-- Do the two ends belong to it? -/
  closed : Bool
  deriving DecidableEq, Repr

namespace RoundingInterval

/-- The interval of a positive number. Half the distance to the next number lies on either
side; below the smallest mantissa the next number is nearer. A tie goes to an even
mantissa. -/
def around (mantissa : Nat) (exponent : Int) : RoundingInterval where
  center := 4 * mantissa
  low := if mantissa = Double.highBit then 4 * mantissa - 1 else 4 * mantissa - 2
  high := 4 * mantissa + 2
  exponent := exponent - 2
  closed := mantissa % 2 == 0

/-- The factor by which units of the interval are compared with multiples of `10 ^ k`. -/
def unitFactor (r : RoundingInterval) (k : Int) : Nat :=
  Nat.pow 10 (-k).toNat <<< r.exponent.toNat

/-- The factor by which multiples of `10 ^ k` are compared with units of the interval. -/
def gridFactor (r : RoundingInterval) (k : Int) : Nat :=
  Nat.pow 10 k.toNat <<< (-r.exponent).toNat

/-- Is the multiple `c` of `10 ^ k` in the interval? -/
def contains (r : RoundingInterval) (k : Int) (c : Nat) : Bool :=
  let point := c * r.gridFactor k
  let low := r.low * r.unitFactor k
  let high := r.high * r.unitFactor k
  if r.closed then decide (low ≤ point ∧ point ≤ high) else
    decide (low < point ∧ point < high)

/-- The multiple of `10 ^ k` in the interval that is nearest to the number. -/
def nearest? (r : RoundingInterval) (k : Int) : Option Nat :=
  let value := r.center * r.unitFactor k
  let grid := r.gridFactor k
  let below := value / grid
  match r.contains k below, r.contains k (below + 1) with
  | true, true => some (if 2 * (value - below * grid) < grid then below else below + 1)
  | true, false => some below
  | false, true => some (below + 1)
  | false, false => none

/-- The decimal on the coarsest grid with a point in the interval, from `10 ^ k` down. -/
def coarsest (r : RoundingInterval) : Nat → Int → Decimal
  | 0, k => ⟨r.center * r.unitFactor k / r.gridFactor k, k⟩
  | tries + 1, k =>
    match r.nearest? k with
    | some digits => ⟨digits, k⟩
    | none => coarsest r tries (k - 1)

end RoundingInterval

/-- A power of ten above the number `mantissa * 2 ^ exponent`, by its exponent. -/
def powerAbove (mantissa : Nat) (exponent : Int) : Int :=
  (mantissa.log2 + 1 + exponent) * 30103 / 100000 + 2

/-- The shortest decimal of the positive number `mantissa * 2 ^ exponent`. Seventeen digits
always suffice, and the search starts at most a few places above the first. -/
def shortest (mantissa : Nat) (exponent : Int) : Decimal :=
  (RoundingInterval.around mantissa exponent).coarsest 30 (powerAbove mantissa exponent)

/-- A decimal, written positionally. -/
def Decimal.text (d : Decimal) : String :=
  let digits := Nat.toDigits 10 d.digits
  match d.exponent with
  | .ofNat k => String.ofList (digits ++ List.replicate k '0')
  | .negSucc k =>
    let places := k + 1
    if places < digits.length then
      let whole := digits.length - places
      String.ofList (digits.take whole ++ '.' :: digits.drop whole)
    else String.ofList ('0' :: '.' :: List.replicate (places - digits.length) '0' ++ digits)

namespace Double

/-- A number as text. -/
def text : Double → String
  | .nan => "NaN"
  | .infinite negative => if negative then "-inf" else "inf"
  | .finite negative mantissa exponent =>
    let magnitude := if mantissa = 0 then "0" else (shortest mantissa exponent).text
    if negative then "-" ++ magnitude else magnitude

end Double

/-- A float as text. -/
def floatText (x : Float) : String := (Double.ofBits x.toBits).text

end Resumable
