/-!
# Double-precision numbers by their parts

A finite double is a signed mantissa times a power of two. Working on the parts keeps
arithmetic on them exact.

## Main definitions

* `Double`: the parts of a number.
* `Double.ofBits`, `Double.toBits`: from and to the 64 bits that encode it.
-/

namespace Resumable

/-- The parts of a double-precision number. -/
inductive Double where
  | nan
  | infinite (negative : Bool)
  /-- The number `± mantissa * 2 ^ exponent`. -/
  | finite (negative : Bool) (mantissa : Nat) (exponent : Int)
  deriving DecidableEq, Repr

namespace Double

/-- The exponent of the smallest positive number. -/
def leastExponent : Int := -1074

/-- The mantissa of a number that is not tiny has its highest bit here. -/
def highBit : Nat := 1 <<< 52

/-- The parts of the number that bits encode. -/
def ofBits (bits : UInt64) : Double :=
  let n := bits.toNat
  let negative := decide (1 <<< 63 ≤ n)
  let scale : Nat := n / highBit % 2048
  let fraction := n % highBit
  if scale = 2047 then
    if fraction = 0 then .infinite negative else .nan
  else if scale = 0 then .finite negative fraction leastExponent
  else .finite negative (fraction + highBit) ((scale : Int) - 1075)

/-- The bit of the sign. -/
def signBits (negative : Bool) : Nat := if negative then 1 <<< 63 else 0

/-- The bits that encode a number. A finite one must have a mantissa below `2 ^ 53` and an
exponent not below the least. -/
def toBits : Double → UInt64
  | .nan => (2047 * highBit + 1 <<< 51).toUInt64
  | .infinite negative => (signBits negative + 2047 * highBit).toUInt64
  | .finite negative mantissa exponent =>
    let shift := min (52 - mantissa.log2) (exponent - leastExponent).toNat
    let m := mantissa <<< shift
    let e := exponent - shift
    if m < highBit then (signBits negative + m).toUInt64
    else (signBits negative + (e + 1075).toNat * highBit + (m - highBit)).toUInt64

end Double

/-- Do the bits encode no number? -/
def isNaNBits (bits : UInt64) : Bool := Double.ofBits bits == .nan

end Resumable
