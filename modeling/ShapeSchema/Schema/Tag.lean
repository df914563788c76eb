/-!
# Scalar tags

The seven names that a schema has for a single value.
-/

namespace ShapeSchema

/-- The name of a class of values. -/
inductive Tag where
  | string
  | number
  | boolean
  | integer
  | array
  | object
  | any
deriving DecidableEq

namespace Tag

/-- The spelling of a tag in a schema. -/
def text : Tag → String
  | .string => "string"
  | .number => "number"
  | .boolean => "boolean"
  | .integer => "integer"
  | .array => "array"
  | .object => "object"
  | .any => "any"

/-- The tag that a text spells. -/
def ofText? (s : String) : Option Tag :=
  if s = "string" then some .string
  else if s = "number" then some .number
  else if s = "boolean" then some .boolean
  else if s = "integer" then some .integer
  else if s = "array" then some .array
  else if s = "object" then some .object
  else if s = "any" then some .any
  else none

/-- A text spells a tag exactly when it is the spelling of that tag. -/
theorem ofText?_eq_some_iff (s : String) (t : Tag) : ofText? s = some t ↔ s = t.text := by
  constructor
  · intro h
    simp only [ofText?] at h
    repeat' split at h
    all_goals first
      | (obtain rfl : _ = t := by simpa using h
         assumption)
      | simp at h
  · rintro rfl
    cases t <;> simp [ofText?, text]

end Tag

end ShapeSchema
