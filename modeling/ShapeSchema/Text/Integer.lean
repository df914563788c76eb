import ShapeSchema.Text.Blank
import ShapeSchema.Text.DecimalDigit

/-!
# Reading an integer

An integer as a person types it: blanks around it, a sign, and decimal digits of any script, which
single underscores may separate. Texts of very many digits can be refused.
-/

namespace ShapeSchema.Text

/-- The values of digits that single underscores may separate. -/
def digitValues? : List Char → Option (List Nat)
  | [] => none
  | [c] => (digitValue? c).map ([·])
  | c :: '_' :: rest =>
    match digitValue? c, digitValues? rest with
    | some d, some ds => some (d :: ds)
    | _, _ => none
  | c :: rest =>
    match digitValue? c, digitValues? rest with
    | some d, some ds => some (d :: ds)
    | _, _ => none

/-- The number written by decimal digits, the most significant first. -/
def ofDigits (ds : List Nat) : Nat := ds.foldl (fun n d => 10 * n + d) 0

/-- The sign in front of a number, and what follows it. -/
def splitSign : List Char → Bool × List Char
  | '-' :: rest => (true, rest)
  | '+' :: rest => (false, rest)
  | rest => (false, rest)

/-- The integer a text spells, if it has at most `mostDigits` digits. -/
def readInt? (mostDigits : Nat) (s : String) : Option Int :=
  let (negative, unsigned) := splitSign (trimBlanks s.toList)
  match digitValues? unsigned with
  | none => none
  | some ds =>
    if mostDigits < ds.length then none
    else some (if negative then -(ofDigits ds : Int) else ofDigits ds)

end ShapeSchema.Text
