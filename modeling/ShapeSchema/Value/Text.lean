import ShapeSchema.Value.Basic
import ShapeSchema.Double.Layout
import ShapeSchema.Text.Quoted

/-!
# The text of a value

`Value.literal` writes a value so that its type can be seen: texts in quotes, containers in their
brackets with their elements as literals. `Value.display` differs only in a text, which it leaves
as it is, and in a foreign value. `Value.render` is the form of enumeration members in reports: it
spells the constants as documents do and writes a number without a fractional part as the integer it
is equal to.
-/

namespace ShapeSchema.Value

mutual

/-- The literal of a value. -/
def literal : Value → String
  | .null => "None"
  | .boolean b => if b then "True" else "False"
  | .integer n => toString n
  | .double x => x.text
  | .string s => Text.quote s
  | .octets bs => Text.quoteOctets bs
  | .list items => "[" ++ ", ".intercalate (literals items) ++ "]"
  | .tuple items =>
    match literals items with
    | [item] => "(" ++ item ++ ",)"
    | texts => "(" ++ ", ".intercalate texts ++ ")"
  | .object entries => "\x7b" ++ ", ".intercalate (entryLiterals entries) ++ "\x7d"
  | .set elements =>
    match literals elements with
    | [] => "set()"
    | texts => "\x7b" ++ ", ".intercalate texts ++ "\x7d"
  | .missing => "undefined"
  | .foreign x => x.literal
termination_by structural v => v

/-- The literals of the elements of a sequence. -/
def literals : List Value → List String
  | [] => []
  | v :: vs => literal v :: literals vs
termination_by structural vs => vs

/-- The literals of entries, the key before its item. -/
def entryLiterals : List (Value × Value) → List String
  | [] => []
  | (key, item) :: rest => (literal key ++ ": " ++ literal item) :: entryLiterals rest
termination_by structural entries => entries

end

/-- A text as it is, a foreign value as its text, and the literal of everything else. -/
def display : Value → String
  | .string s => s
  | .foreign x => x.text
  | v => v.literal

/-- A value as reports render it. -/
def render : Value → String
  | .null => "null"
  | .boolean b => if b then "true" else "false"
  | .double x =>
    match x.toInt? with
    | some n => toString n
    | none => x.text
  | v => v.display

end ShapeSchema.Value
