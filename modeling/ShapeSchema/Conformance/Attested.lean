import ShapeSchema.Conformance.Answer

/-!
# What a report says of the data

A report has a code, a wording and a path, and the path is that of some steps. `Attested` says that
the data bear out such a report: the steps lead to a part of the data of which the wording is true.
Only two reports name a place that is not there. A missing key is looked for in an object that is
there, and so is the field that an object schema declares twice.
-/

namespace ShapeSchema

/-- The value bears out a report with such a code and wording whose path is that of the steps. -/
inductive Attested (limit : Int) (v : Value) : ReasonCode → String → Location → Prop where
  /-- The last step is the key that an object lacks. -/
  | missingRequiredKey {steps : Location} {data : List (Value × Value)} {key : Value}
    (leads : v.LeadsTo steps (.object data)) (hkey : Entries.contains data key = false) :
    Attested limit v .missingRequiredKey "missing required key" (steps ++ [.key key])
  /-- The last step is the name of the field that the schema of an object declares twice. -/
  | conflictingKeys {steps : Location} {data : List (Value × Value)} {base : String}
    (leads : v.LeadsTo steps (.object data)) :
    Attested limit v .invalidSchema
      ("conflicting schema keys '" ++ base ++ "' and '" ++ base ++ "?'")
      (steps ++ [.key (.string base)])
  /-- The last step is a key of an object. -/
  | unrecognizedKey {steps : Location} {data : List (Value × Value)} {key item : Value}
    (leads : v.LeadsTo steps (.object data)) (mem : (key, item) ∈ data) :
    Attested limit v .unrecognizedKey "unrecognized key" (steps ++ [.key key])
  /-- The strictness of the schema of an object is no truth value. -/
  | invalidStrictness {steps : Location} {data : List (Value × Value)} {shown : String}
    (leads : v.LeadsTo steps (.object data)) :
    Attested limit v .invalidSchema ("invalid schema value for '_strict': '" ++ shown ++ "'") steps
  /-- What the value is held against is no schema. -/
  | invalidNode {steps : Location} {w : Value} {shown : String} (leads : v.LeadsTo steps w) :
    Attested limit v .invalidSchema ("invalid schema type: '" ++ shown ++ "'") steps
  /-- The value is of another kind than is expected, or it is foreign and its class only bears the
  name of what is expected. -/
  | typeMismatch {steps : Location} {w : Value} {expected : String} (leads : v.LeadsTo steps w)
    (hkind : expected ≠ w.kind.text ∨
      w.IsForeign expected ∧ expected ∈ ["array", "integer", "object"]) :
    Attested limit v .typeMismatch
      ("expected type '" ++ expected ++ "', got '" ++ w.kind.text ++ "'") steps
  /-- The value is rendered, and is the same as none of the members that the label shows. -/
  | enumMismatch {steps : Location} {w : Value} {members : List Value} (leads : v.LeadsTo steps w)
    (hmembers : ∀ member ∈ members, w.same member = false) :
    Attested limit v .enumMismatch
      ("expected type '" ++ Schema.enumerationLabel members ++ "', got '" ++ w.render ++ "'") steps
  /-- The kind of the value is told. -/
  | unionMismatch {steps : Location} {w : Value} {expected : String} (leads : v.LeadsTo steps w) :
    Attested limit v .unionMismatch
      ("expected type '" ++ expected ++ "', got '" ++ w.kind.text ++ "'") steps
  /-- The value is a sequence. -/
  | tooFewElements {steps : Location} {w : Value} (leads : v.LeadsTo steps w)
    (hsequence : w.isSequence = true) :
    Attested limit v .tooFewElements "array has too few elements" steps
  /-- The value is a sequence. -/
  | invalidNumberOfElements {steps : Location} {w : Value} (leads : v.LeadsTo steps w)
    (hsequence : w.isSequence = true) :
    Attested limit v .invalidNumberOfElements "array has an invalid number of elements" steps
  /-- The value is a sequence. -/
  | expectedEmptyArray {steps : Location} {w : Value} (leads : v.LeadsTo steps w)
    (hsequence : w.isSequence = true) :
    Attested limit v .expectedEmptyArray "expected empty array" steps
  /-- No room was left where the steps lead. -/
  | maxDepthExceeded {steps : Location} {w : Value} (leads : v.LeadsTo steps w) :
    Attested limit v .maxDepthExceeded
      ("maximum nesting depth of " ++ toString limit ++ " exceeded") steps

end ShapeSchema
