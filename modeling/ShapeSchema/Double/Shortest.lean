import ShapeSchema.Double.Rounding

/-!
# The shortest decimal that reads back

Among the decimals that round to a given double there are some of fewest digits, and among those
one is nearest to the double. `Double.shortest` finds it by exact search: for one, two, up to
seventeen digits it takes the two neighbours of the value on the grid of decimals of that length,
the nearer one first, and keeps the first that `Double.ofDecimal` reads back as the same double.
-/

namespace ShapeSchema

/-- The number `digits * 10 ^ exponent`. -/
structure Decimal where
  /-- The digits, read as one natural number. -/
  digits : Nat
  /-- The power of ten of the last digit. -/
  exponent : Int
deriving DecidableEq

namespace Double

/-- The power of ten of the first decimal digit of a ratio. The estimate of the binary logarithm
gives it up to one. -/
def decimalOrder (r : Ratio) : Int :=
  let estimate := r.logEstimate * 30103 / 100000
  let reaches (k : Int) : Bool := (r.scale 10 (-k)).den ≤ (r.scale 10 (-k)).num
  if reaches (estimate + 1) then estimate + 1
  else if reaches estimate then estimate
  else estimate - 1

/-- The two neighbours of a ratio among the multiples of `10 ^ k`, the nearer one first. Of two
equally near ones the one with the even last digit comes first. -/
def neighbours (r : Ratio) (k : Int) : List Decimal :=
  let unit := r.scale 10 (-k)
  if unit.rounded = unit.floor then [⟨unit.floor, k⟩, ⟨unit.floor + 1, k⟩]
  else [⟨unit.floor + 1, k⟩, ⟨unit.floor, k⟩]

/-- Whether a decimal is read as the double `m * 2 ^ e`. -/
def readsAs (m : Nat) (e : Int) (d : Decimal) : Bool :=
  ofDecimal false d.digits d.exponent == ofCanonical false m e

/-- The decimal expansion of `m * 2 ^ e` in full. -/
def expansion (m : Nat) (e : Int) : Decimal :=
  if 0 ≤ e then ⟨m * Nat.pow 2 e.toNat, 0⟩ else ⟨m * Nat.pow 5 (-e).toNat, e⟩

/-- No double needs more decimal digits than this. -/
def mostDigits : Nat := 17

/-- The first neighbour with `n + 1` digits, in the order above, that reads as `m * 2 ^ e`. -/
def withDigits? (m : Nat) (e : Int) (n : Nat) : Option Decimal :=
  let r := magnitude m e
  (neighbours r (decimalOrder r - n)).find? (readsAs m e)

/-- A decimal of fewest digits that reads as `m * 2 ^ e`, and of those the nearest. -/
def shortest (m : Nat) (e : Int) : Decimal :=
  ((List.range mostDigits).findSome? (withDigits? m e)).getD (expansion m e)

/-- The decimal that is found reads back as the number it was found for, whenever the full
expansion does. -/
theorem readsAs_shortest (m : Nat) (e : Int) (h : readsAs m e (expansion m e) = true) :
    readsAs m e (shortest m e) = true := by
  simp only [shortest]
  cases hf : (List.range mostDigits).findSome? (withDigits? m e) with
  | none => simpa using h
  | some d =>
    obtain ⟨n, -, hn⟩ := List.exists_of_findSome?_eq_some hf
    simpa using List.find?_some hn

end Double

end ShapeSchema
