import ShapeSchema.Location
import ShapeSchema.Schema.Tag

/-!
# Violations

A `Problem` says what is wrong, with the part of the data that its wording needs, and a `Violation`
says where. Locations are relative to the value at which a check started; the start path and the
depth limit come in only when a violation is put into words, so that neither can decide anything.
-/

namespace ShapeSchema

/-- What is wrong with a value, or with the schema that it is held against. -/
inductive Problem where
  /-- The value is not of the expected class. -/
  | typeMismatch (expected : Tag) (got : String)
  /-- The value is no member of an enumeration. -/
  | enumMismatch (expected got : String)
  /-- The value conforms to no alternative. -/
  | unionMismatch (expected got : String)
  /-- An array is too short. -/
  | tooFewElements
  /-- An array is longer than it may be. -/
  | tooManyElements
  /-- An array should be empty. -/
  | notEmpty
  /-- An object lacks a key. -/
  | missingKey
  /-- An object has a key that nothing covers. -/
  | unrecognizedKey
  /-- A schema node is no schema. -/
  | invalidNode (shown : String)
  /-- An object schema declares a key twice, once as optional. -/
  | conflictingKeys (base : String)
  /-- The strictness of an object schema is no truth value. -/
  | invalidStrictness (shown : String)
  /-- The schema goes deeper than the limit. -/
  | tooDeep
deriving DecidableEq

/-- The code by which programs tell problems apart. -/
inductive ReasonCode where
  | typeMismatch
  | enumMismatch
  | unionMismatch
  | tooFewElements
  | invalidNumberOfElements
  | expectedEmptyArray
  | missingRequiredKey
  | unrecognizedKey
  | invalidSchema
  | maxDepthExceeded
deriving DecidableEq

/-- The spelling of a reason code. -/
def ReasonCode.text : ReasonCode → String
  | .typeMismatch => "type_mismatch"
  | .enumMismatch => "enum_mismatch"
  | .unionMismatch => "union_mismatch"
  | .tooFewElements => "too_few_elements"
  | .invalidNumberOfElements => "invalid_number_of_elements"
  | .expectedEmptyArray => "expected_empty_array"
  | .missingRequiredKey => "missing_required_key"
  | .unrecognizedKey => "unrecognized_key"
  | .invalidSchema => "invalid_schema"
  | .maxDepthExceeded => "max_depth_exceeded"

namespace Problem

/-- The code of a problem. What is wrong with the schema has one code. -/
def code : Problem → ReasonCode
  | .typeMismatch _ _ => .typeMismatch
  | .enumMismatch _ _ => .enumMismatch
  | .unionMismatch _ _ => .unionMismatch
  | .tooFewElements => .tooFewElements
  | .tooManyElements => .invalidNumberOfElements
  | .notEmpty => .expectedEmptyArray
  | .missingKey => .missingRequiredKey
  | .unrecognizedKey => .unrecognizedKey
  | .invalidNode _ => .invalidSchema
  | .conflictingKeys _ => .invalidSchema
  | .invalidStrictness _ => .invalidSchema
  | .tooDeep => .maxDepthExceeded

/-- What was expected and what was found instead. -/
def mismatchText (expected got : String) : String :=
  "expected type '" ++ expected ++ "', got '" ++ got ++ "'"

/-- The wording of a problem under a depth limit. -/
def text (limit : Int) : Problem → String
  | .typeMismatch expected got => mismatchText expected.text got
  | .enumMismatch expected got => mismatchText expected got
  | .unionMismatch expected got => mismatchText expected got
  | .tooFewElements => "array has too few elements"
  | .tooManyElements => "array has an invalid number of elements"
  | .notEmpty => "expected empty array"
  | .missingKey => "missing required key"
  | .unrecognizedKey => "unrecognized key"
  | .invalidNode shown => "invalid schema type: '" ++ shown ++ "'"
  | .conflictingKeys base =>
    "conflicting schema keys '" ++ base ++ "' and '" ++ base ++ "?'"
  | .invalidStrictness shown => "invalid schema value for '_strict': '" ++ shown ++ "'"
  | .tooDeep => "maximum nesting depth of " ++ toString limit ++ " exceeded"

end Problem

/-- A problem and where it lies. -/
structure Violation where
  /-- The steps from the start of the check. -/
  location : Location
  /-- What is wrong there. -/
  problem : Problem

namespace Violation

/-- The violation as seen from one step further out. -/
def under (s : Step) (v : Violation) : Violation := { v with location := s :: v.location }

/-- The path of a violation behind a start path. -/
def path (start : String) (v : Violation) : String := v.location.path start

/-- The message of a violation: the path in quotes, and what is wrong there. -/
def message (start : String) (limit : Int) (v : Violation) : String :=
  "'" ++ v.path start ++ "': " ++ v.problem.text limit

end Violation

end ShapeSchema
