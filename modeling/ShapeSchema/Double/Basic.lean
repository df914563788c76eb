import ShapeSchema.Double.Ratio

/-!
# Double-precision numbers

A `Double` is a binary floating-point number given by what it denotes: a sign, a significand and a
power of two, kept in the one canonical form that the format stores. Beside the finite numbers
there are the two infinities and the values that are not numbers. A value that is not a number
carries a mark, because containers tell two of them apart by identity and by nothing else.

`Double.quantity?` is the exact rational (or infinite) quantity a number stands for, and every
comparison between numbers of different types goes through it, so that nothing is ever rounded in
order to be compared. `Double.toInt?` is the integer a number is equal to, if there is one.
-/

namespace ShapeSchema

/-- The least significand that has all of its 53 bits, which is `2 ^ 52`. -/
def Double.fullSignificand : Nat := 0x10000000000000

/-- The first number that is too large for a significand, which is `2 ^ 53`. -/
def Double.significandEnd : Nat := 0x20000000000000

/-- The canonical finite forms `m * 2 ^ e`: at most 53 bits, a bounded exponent, and a full
significand unless the exponent is already the least one. -/
def Double.Canonical (m : Nat) (e : Int) : Prop :=
  m < significandEnd ∧ -1074 ≤ e ∧ e ≤ 971 ∧ (fullSignificand ≤ m ∨ e = -1074)

instance (m : Nat) (e : Int) : Decidable (Double.Canonical m e) := by
  unfold Double.Canonical
  infer_instance

/-- A number of the 64-bit binary floating-point format. -/
inductive Double where
  /-- Not a number; two of these are the same object when their marks agree. -/
  | nan (mark : Nat)
  /-- An infinity of either sign. -/
  | infinite (negative : Bool)
  /-- The number `m * 2 ^ e`, negated when `negative` is set. -/
  | finite (negative : Bool) (m : Nat) (e : Int) (canonical : Double.Canonical m e)
deriving DecidableEq

/-- What a number amounts to, exactly: a rational, or one of the infinities. -/
inductive Quantity where
  /-- A rational quantity. -/
  | finite (q : Rat)
  /-- Beyond every rational, above or below. -/
  | infinite (negative : Bool)
deriving DecidableEq

namespace Quantity

/-- The quantity of an integer. -/
def ofInt (n : Int) : Quantity := .finite n

/-- Truth values count as one and zero. -/
def ofBool (b : Bool) : Quantity := ofInt (if b then 1 else 0)

end Quantity

/-- A natural number with a sign. -/
def signed (negative : Bool) (n : Nat) : Int :=
  if negative then -(n : Int) else n

namespace Double

/-- Zero of the given sign. -/
def zero (negative : Bool) : Double := .finite negative 0 (-1074) (by decide)

/-- The ratio `m * 2 ^ e`. -/
def magnitude (m : Nat) (e : Int) : Ratio := (Ratio.ofNat m).scale 2 e

/-- The exact value of `m * 2 ^ e` with a sign. -/
def rational (negative : Bool) (m : Nat) (e : Int) : Rat :=
  mkRat (signed negative (magnitude m e).num) (magnitude m e).den

/-- The exact quantity of a double; none for what is not a number. -/
def quantity? : Double → Option Quantity
  | .nan _ => none
  | .infinite negative => some (.infinite negative)
  | .finite negative m e _ => some (.finite (rational negative m e))

/-- The integer a double is equal to, if there is one. -/
def toInt? : Double → Option Int
  | .nan _ => none
  | .infinite _ => none
  | .finite negative m e _ =>
    if (magnitude m e).isNatural then some (signed negative (magnitude m e).floor) else none

/-- A double has no fractional part when some integer is equal to it; the infinities have none
such. -/
def isIntegral (x : Double) : Bool := x.toInt?.isSome

/-- Whether a double is not a number. -/
def isNaN : Double → Bool
  | .nan _ => true
  | _ => false

/-- Whether a double is a zero of either sign. -/
def isZero : Double → Bool
  | .finite _ m _ _ => m == 0
  | _ => false

/-- Two doubles are alike when they are the same quantity; what is not a number is alike only to
itself. -/
def alike : Double → Double → Bool
  | .nan mark, .nan mark' => mark == mark'
  | .nan _, _ => false
  | _, .nan _ => false
  | x, y => x.quantity? == y.quantity?

end Double

end ShapeSchema
