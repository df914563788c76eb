import ShapeSchema.Text.Lines

/-!
# Why a document is refused

A document is refused because it is malformed at some place, or because it goes beyond one of the
limits of the reader: how deep containers may be nested, and how many digits an integer may have.
-/

namespace ShapeSchema.Json

/-- How a text fails to be a document. -/
inductive Cause where
  /-- No value starts here. -/
  | expectingValue
  /-- No name of a member starts here. -/
  | expectingName
  /-- A name is not followed by a colon. -/
  | expectingColon
  /-- An element or a member is followed neither by a comma nor by the end of its container. -/
  | expectingComma
  /-- Something follows the value. -/
  | extraData
  /-- A string is not closed. -/
  | unterminatedString
  /-- A control character stands in a string. -/
  | invalidControl
  /-- A backslash is followed by no escape. -/
  | invalidEscape
  /-- An escape by code unit lacks its four digits. -/
  | invalidUnit
  /-- The text starts with a byte order mark. -/
  | byteOrderMark
deriving DecidableEq

/-- The wording of a cause. -/
def Cause.text : Cause → String
  | .expectingValue => "Expecting value"
  | .expectingName => "Expecting property name enclosed in double quotes"
  | .expectingColon => "Expecting ':' delimiter"
  | .expectingComma => "Expecting ',' delimiter"
  | .extraData => "Extra data"
  | .unterminatedString => "Unterminated string starting at"
  | .invalidControl => "Invalid control character at"
  | .invalidEscape => "Invalid \\escape"
  | .invalidUnit => "Invalid \\uXXXX escape"
  | .byteOrderMark => "Unexpected UTF-8 BOM (decode using utf-8-sig)"

/-- The two kinds of containers. -/
inductive Container where
  | array
  | object
deriving DecidableEq

/-- The name of a container. -/
def Container.text : Container → String
  | .array => "array"
  | .object => "object"

/-- What a reader puts up with. -/
structure Limits where
  /-- The deepest nesting of containers. -/
  nesting : Nat
  /-- The most digits of an integer. -/
  digits : Nat

/-- Why a text is not read as a value. -/
inductive Refusal where
  /-- The text is malformed at a place, given by the number of characters before it. -/
  | malformed (cause : Cause) (offset : Nat)
  /-- A container is nested too deep. -/
  | tooDeep (container : Container)
  /-- An integer has too many digits. -/
  | tooManyDigits (limit count : Nat)
deriving DecidableEq

/-- The message of a refusal, with the place in the text where there is one. -/
def Refusal.message (text : List Char) : Refusal → String
  | .malformed cause offset => cause.text ++ ": " ++ (Text.placeAt text offset).describe
  | .tooDeep container =>
    "maximum recursion depth exceeded while decoding a JSON " ++ container.text ++
      " from a unicode string"
  | .tooManyDigits limit count =>
    "Exceeds the limit (" ++ toString limit ++
      " digits) for integer string conversion: value has " ++ toString count ++
      " digits; use sys.set_int_max_str_digits() to increase the limit"

/-- A part of a text that has been read, and what is left: no more characters than in `whole`. -/
structure Scanned (α : Type) (whole : List Char) where
  /-- What was read. -/
  value : α
  /-- The number of characters before the rest. -/
  offset : Nat
  /-- The text behind it. -/
  rest : List Char
  /-- No more is left than there was. -/
  within : rest.length ≤ whole.length

/-- Nothing of a text has been read but what went before it. -/
def Scanned.start {α : Type} (value : α) (offset : Nat) (cs : List Char) : Scanned α cs :=
  ⟨value, offset, cs, Nat.le_refl _⟩

/-- What is left of a text is also left of any longer one. -/
def Scanned.widen {α : Type} {cs whole : List Char} (s : Scanned α cs)
    (h : cs.length ≤ whole.length) : Scanned α whole :=
  { s with within := Nat.le_trans s.within h }

end ShapeSchema.Json
