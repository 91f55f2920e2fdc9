import Resumable.Number.Double

/-!
# The remainder of a division

The remainder of `a` by `b` is `a - n * b`, where `n` is the quotient cut to an integer
towards zero. It is exact and has the sign of `a`.
-/

namespace Resumable

namespace Double

/-- The remainder of the division of two numbers. -/
def rem : Double → Double → Double
  | .nan, _ | _, .nan | .infinite _, _ => .nan
  | a, .infinite _ => a
  | .finite negative m e, .finite _ n f =>
    if n = 0 then .nan
    else
      let least := min e f
      .finite negative (m <<< (e - least).toNat % n <<< (f - least).toNat) least

end Double

/-- The remainder of the division of two floats. -/
def floatRem (a b : Float) : Float :=
  Float.ofBits ((Double.ofBits a.toBits).rem (Double.ofBits b.toBits)).toBits

end Resumable
