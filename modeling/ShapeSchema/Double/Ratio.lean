/-!
# Ratios of natural numbers

A `Ratio` is a non-negative rational number as it is reached in a computation, with no common
factor taken out. `Ratio.scale` multiplies it by a power of a base, and `Ratio.rounded` is the
natural number nearest to it; both are exact, whatever the size of the numbers.
-/

namespace ShapeSchema

/-- The quotient of two natural numbers. -/
structure Ratio where
  /-- The numerator. -/
  num : Nat
  /-- The denominator. -/
  den : Nat
deriving DecidableEq

namespace Ratio

/-- A natural number as a ratio. -/
def ofNat (n : Nat) : Ratio := ⟨n, 1⟩

/-- The ratio times `base ^ k`. -/
def scale (base : Nat) (k : Int) (r : Ratio) : Ratio :=
  if 0 ≤ k then ⟨r.num * Nat.pow base k.toNat, r.den⟩
  else ⟨r.num, r.den * Nat.pow base (-k).toNat⟩

/-- The largest natural number that is not above the ratio. -/
def floor (r : Ratio) : Nat := r.num / r.den

/-- Whether the ratio is a natural number. -/
def isNatural (r : Ratio) : Bool := r.num % r.den == 0

/-- The natural number nearest to the ratio; a half goes to the even neighbour. -/
def rounded (r : Ratio) : Nat :=
  let rest := r.num % r.den
  if 2 * rest < r.den then r.floor
  else if 2 * rest = r.den ∧ r.floor % 2 = 0 then r.floor
  else r.floor + 1

/-- The binary logarithm of the ratio, give or take one. -/
def logEstimate (r : Ratio) : Int := (r.num.log2 : Int) - r.den.log2

/-- Scaling by a positive base keeps the denominator positive. -/
theorem scale_den_pos {base : Nat} (hbase : 0 < base) (k : Int) {r : Ratio} (hr : 0 < r.den) :
    0 < (scale base k r).den := by
  simp only [scale]
  split
  · exact hr
  · exact Nat.mul_pos hr (Nat.pow_pos hbase)

/-- Rounding never falls below the ratio's floor and adds at most one to it. -/
theorem rounded_bounds (r : Ratio) : r.floor ≤ r.rounded ∧ r.rounded ≤ r.floor + 1 := by
  simp only [rounded]
  split
  · omega
  · split <;> omega

/-- A ratio that is a natural number is its own rounding. -/
theorem rounded_of_isNatural {r : Ratio} (hr : 0 < r.den) (h : r.isNatural = true) :
    r.rounded = r.floor := by
  have hrest : r.num % r.den = 0 := by simpa [isNatural] using h
  simp [rounded, hrest, hr]

end Ratio

end ShapeSchema
