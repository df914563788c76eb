import ShapeSchema.Value.Text

/-!
# Sequence schemas

A sequence is read as a schema in one of three forms. If it starts with the text `enum`, the rest
are the members of an enumeration; if it starts with `or`, the rest are the alternatives of a union;
any other sequence describes an array position by position, and a repeat mark as its last element
lets the element before it stand for any number of positions.

`Schema.label` is the readable name of a schema in reports. It looks into unions only.
-/

namespace ShapeSchema

/-- How a sequence is read as a schema. -/
inductive SequenceForm where
  | enumeration
  | union
  | array
deriving DecidableEq

/-- The name of a form. -/
def SequenceForm.text : SequenceForm → String
  | .enumeration => "enum"
  | .union => "or"
  | .array => "array"

/-- How often the element before a repeat mark may occur. -/
inductive Repetition where
  /-- Once or more. -/
  | atLeastOnce
  /-- Any number of times. -/
  | anyNumber
deriving DecidableEq

/-- The repetition that a value marks. -/
def Repetition.ofValue? : Value → Option Repetition
  | .string s => if s = "+" then some .atLeastOnce else if s = "*" then some .anyNumber else none
  | _ => none

namespace Schema

/-- The form of a sequence, told by its first element. -/
def form : List Value → SequenceForm
  | .string s :: _ =>
    if s = "enum" then .enumeration else if s = "or" then .union else .array
  | _ => .array

/-- The label of an enumeration with the given members. -/
def enumerationLabel (members : List Value) : String :=
  "enum(" ++ ", ".intercalate (members.map Value.render) ++ ")"

/-- The label of a union whose alternatives have the given labels. -/
def unionLabel (labels : List String) : String := " | ".intercalate labels

mutual

/-- The readable name of a schema. What is no schema is rendered as a value. -/
def label : Value → String
  | .list items =>
    match form items with
    | .enumeration => enumerationLabel (items.drop 1)
    | .union => unionLabel ((labels items).drop 1)
    | .array => "array"
  | .tuple items =>
    match form items with
    | .enumeration => enumerationLabel (items.drop 1)
    | .union => unionLabel ((labels items).drop 1)
    | .array => "array"
  | .object _ => "object"
  | v => v.render
termination_by structural v => v

/-- The labels of the elements of a sequence. -/
def labels : List Value → List String
  | [] => []
  | v :: vs => label v :: labels vs
termination_by structural vs => vs

end

/-- The labels of a sequence, one by one. -/
theorem labels_eq_map (vs : List Value) : labels vs = vs.map label := by
  induction vs with
  | nil => rfl
  | cons v vs ih => simp [labels, ih]

end Schema

end ShapeSchema
