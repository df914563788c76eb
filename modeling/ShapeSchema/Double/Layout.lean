import ShapeSchema.Double.Shortest

/-!
# The text of a double

A `Layout` holds the decisions of a number format: from which power of ten on digits are written
out in full, how an exponent is written, and how the special values are spelled. `Layout.finite`
lays out the digits of a positive number under such decisions, and `Double.text` writes any double
with the fewest digits that read back.
-/

namespace ShapeSchema

/-- The decisions of a text format for floating-point numbers. -/
structure Layout where
  /-- The least power of ten of the first digit that is still written positionally. -/
  positionalFrom : Int
  /-- The first power of ten that is not written positionally any more. -/
  positionalBelow : Int
  /-- Written after a positional number that has no digits behind its point. -/
  wholeMark : List Char
  /-- Stands between the digits and their exponent. -/
  exponentMark : Char
  /-- An exponent has at least this many digits. -/
  exponentWidth : Nat
  /-- The spelling of the infinity. -/
  infinity : String
  /-- The spelling of what is not a number. -/
  nan : String

namespace Layout

/-- Digits that may be preceded by zeros up to a width. -/
def padded (width n : Nat) : List Char :=
  let ds := Nat.toDigits 10 n
  List.replicate (width - ds.length) '0' ++ ds

/-- An exponent with its sign, which is always written. -/
def exponentText (l : Layout) (x : Int) : List Char :=
  l.exponentMark :: (if x < 0 then '-' else '+') :: padded l.exponentWidth x.natAbs

/-- The digits `ds` with the decimal point after the first `point` of them, which may lie outside
the digits. -/
def positional (l : Layout) (ds : List Char) (point : Int) : List Char :=
  if point ≤ 0 then '0' :: '.' :: List.replicate (-point).toNat '0' ++ ds
  else if ds.length ≤ point.toNat then
    ds ++ List.replicate (point.toNat - ds.length) '0' ++ l.wholeMark
  else ds.take point.toNat ++ '.' :: ds.drop point.toNat

/-- One digit, the others behind a point if there are any, and the exponent of the first. -/
def scientific (l : Layout) (ds : List Char) (exponent : Int) : List Char :=
  match ds with
  | d :: e :: rest => d :: '.' :: e :: rest ++ l.exponentText exponent
  | ds => ds ++ l.exponentText exponent

/-- The text of a positive decimal: its digits without the zeros that end them, placed by the
power of ten of the first. -/
def decimal (l : Layout) (d : Decimal) : List Char :=
  let written := Nat.toDigits 10 d.digits
  let point := (written.length : Int) + d.exponent
  let ds := (written.reverse.dropWhile (· == '0')).reverse
  if l.positionalFrom ≤ point - 1 ∧ point - 1 < l.positionalBelow then l.positional ds point
  else l.scientific ds (point - 1)

/-- The text of a double in a layout. -/
def write (l : Layout) : Double → String
  | .nan _ => l.nan
  | .infinite negative => if negative then "-" ++ l.infinity else l.infinity
  | .finite negative m e _ =>
    let magnitude :=
      if m = 0 then '0' :: l.wholeMark else l.decimal (Double.shortest m e)
    String.ofList (if negative then '-' :: magnitude else magnitude)

end Layout

namespace Double

/-- Numbers from a ten-thousandth up to `10 ^ 16` are written positionally and always show a
point; all others take a signed exponent of at least two digits. -/
def layout : Layout where
  positionalFrom := -4
  positionalBelow := 16
  wholeMark := ['.', '0']
  exponentMark := 'e'
  exponentWidth := 2
  infinity := "inf"
  nan := "nan"

/-- The text of a double: the fewest digits that read back. -/
def text (x : Double) : String := layout.write x

end Double

end ShapeSchema
