import ShapeSchema.Double.Basic

/-!
# Rounding to the nearest double

A decimal literal denotes a rational number, and reading it yields the double nearest to that
rational, of two equally near ones the one with the even significand. `Double.ofRatio` rounds any
ratio of natural numbers in exact arithmetic; `Double.ofDecimal` applies it to the digits and the
exponent of a literal. A magnitude that rounds beyond the largest finite double becomes infinite.
-/

namespace ShapeSchema.Double

/-- The double `m * 2 ^ e` when that is a canonical form, and an infinity otherwise. -/
def ofCanonical (negative : Bool) (m : Nat) (e : Int) : Double :=
  if h : Canonical m e then .finite negative m e h else .infinite negative

/-- The exponent at which the significand of a ratio has 53 bits, or the least exponent of the
format if that is larger. The estimate of the logarithm leaves two candidates. -/
def exponentOfRatio (r : Ratio) : Int :=
  -- The quotient in units of `2 ^ e` lies between `2 ^ 52` and `2 ^ 54`.
  let e := r.logEstimate - 53
  let unit := r.scale 2 (-e)
  max (-1074) (if significandEnd * unit.den ≤ unit.num then e + 1 else e)

/-- The double nearest to a ratio. A significand that rounds up to one bit too many is halved,
which is exact. -/
def ofRatio (negative : Bool) (r : Ratio) : Double :=
  if r.num = 0 then zero negative
  else
    let e := exponentOfRatio r
    let m := (r.scale 2 (-e)).rounded
    if m = significandEnd then ofCanonical negative fullSignificand (e + 1)
    else ofCanonical negative m e

/-- A power of ten above which every magnitude is beyond the largest finite double. -/
def tooLarge : Int := 310

/-- A power of ten below which every magnitude rounds to zero. -/
def tooSmall : Int := -330

/-- The double nearest to `digits * 10 ^ exponent`. Magnitudes far outside the format are settled
by the number of digits, so that a huge exponent costs nothing. -/
def ofDecimal (negative : Bool) (digits : Nat) (exponent : Int) : Double :=
  if digits = 0 then zero negative
  else
    let scale := exponent + ((Nat.toDigits 10 digits).length : Int)
    if tooLarge < scale then .infinite negative
    else if scale < tooSmall then zero negative
    else ofRatio negative ((Ratio.ofNat digits).scale 10 exponent)

end ShapeSchema.Double
