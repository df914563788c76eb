import ShapeSchema.Schema.Grammar
import ShapeSchema.Value.Equality

/-!
# Conformance

`Accepts strict schema v` says that a value conforms to a schema. It is the least relation closed
under one rule for each form of schema; there is no order in it, no log and no limit of depth.
`Tag.Holds` says which values a tag names, and `Governs entries key node` which node of an object
schema has to do with the item under a key of the data. `AllowsMissing schema` says that nothing has
to be there for the schema.
-/

namespace ShapeSchema

/-- The values of the class that a tag names. Where this is a kind, the foreign values of a class
with that name belong to it as well. -/
def Tag.Holds : Tag → Value → Prop
  | .string, v => (∃ s, v = .string s) ∨ v.IsForeign "string"
  | .number, v => (∃ n, v = .integer n) ∨ (∃ x, v = .double x) ∨ v.IsForeign "number"
  | .boolean, v => (∃ b, v = .boolean b) ∨ v.IsForeign "boolean"
  | .integer, v => (∃ n, v = .integer n) ∨ ∃ x n, v = .double x ∧ x.toInt? = some n
  | .array, v => ∃ items, v = .list items ∨ v = .tuple items
  | .object, v => (∃ entries, v = .object entries) ∨ v.IsForeign "object"
  | .any, _ => True

namespace Schema

/-- The node governs the items that data have under the key. -/
inductive Governs (entries : List (Value × Value)) (key node : Value) : Prop where
  /-- The field of that name, which is not reserved. -/
  | field (hreserved : isReserved key = false) (hget : Entries.get? entries key = some node)
  /-- The optional field of that name, if there is no other. -/
  | optionalField {name : String} (hkey : key = .string name) (hreserved : isReserved key = false)
    (hfield : Entries.contains entries key = false)
    (hget : Entries.get? entries (.string (optionalKey name)) = some node)
  /-- What is said of uncovered keys, if there is no field of that name. -/
  | uncovered
    (hfield : isReserved key = true ∨ (Entries.contains entries key = false ∧
      ∀ name, key = .string name → Entries.contains entries (.string (optionalKey name)) = false))
    (hget : Entries.get? entries (.string anyKey) = some node) (hnull : node ≠ .null)

/-- The value conforms to the schema, where `strict` says whether objects that do not say so
themselves refuse keys that nothing covers. -/
inductive Accepts (strict : Bool) : Value → Value → Prop where
  /-- A tag accepts the values of its class. -/
  | tag {t : Tag} {v : Value} (holds : t.Holds v) : Accepts strict (.string t.text) v
  /-- An enumeration accepts what is the same as one of its members. -/
  | enumeration {schema v : Value} {members : List Value} {member : Value}
    (hitems : schema.items? = some (.string "enum" :: members)) (mem : member ∈ members)
    (same : v.same member = true) : Accepts strict schema v
  /-- A union accepts what one of its alternatives accepts. -/
  | union {schema v : Value} {alternatives : List Value} {alternative : Value}
    (hitems : schema.items? = some (.string "or" :: alternatives))
    (mem : alternative ∈ alternatives) (accepts : Accepts strict alternative v) :
    Accepts strict schema v
  /-- The array schema without elements accepts the empty arrays. -/
  | nil {schema v : Value} (hschema : schema.items? = some []) (hv : v.items? = some []) :
    Accepts strict schema v
  /-- An array schema of one element asks about the first position only, whether or not the data
  have it. -/
  | single {schema v node : Value} {items : List Value} (hschema : schema.items? = some [node])
    (hform : form [node] = .array) (hv : v.items? = some items)
    (accepts : Accepts strict node (items.head?.getD .missing)) : Accepts strict schema v
  /-- A repeat mark lets the element before it stand for all positions from its own on. -/
  | repeated {schema v node mark : Value} {lead items rest : List Value} {r : Repetition}
    (hschema : schema.items? = some (lead ++ [node, mark]))
    (hform : form (lead ++ [node, mark]) = .array) (hmark : Repetition.ofValue? mark = some r)
    (hv : v.items? = some (items ++ rest)) (hlength : items.length = lead.length)
    (hrest : r = .atLeastOnce → rest ≠ [])
    (leadAccepts : ∀ p ∈ lead.zip items, Accepts strict p.1 p.2)
    (restAccepts : ∀ item ∈ rest, Accepts strict node item) : Accepts strict schema v
  /-- Any other array schema accepts arrays of its own length, position by position. -/
  | fixed {schema v : Value} {nodes items : List Value} (hschema : schema.items? = some nodes)
    (hform : form nodes = .array) (htwo : 2 ≤ nodes.length) (hmark : endsInMark nodes = false)
    (hv : v.items? = some items) (hlength : items.length = nodes.length)
    (accepts : ∀ p ∈ nodes.zip items, Accepts strict p.1 p.2) : Accepts strict schema v
  /-- An object schema accepts an object that has all required keys, whose keys are all covered
  unless it is lenient, and whose items conform to what covers them. -/
  | object {entries data : List (Value × Value)} (sound : SoundEntries entries)
    (required : ∀ e ∈ entries, isReserved e.1 = false →
      (∀ s, e.1 = .string s → isOptional s = false) → Entries.contains data e.1 = true)
    (covered : ∀ e ∈ data, (∀ node, ¬Governs entries e.1 node) →
      strictness entries strict = false)
    (accepts : ∀ e ∈ data, ∀ node, Governs entries e.1 node → Accepts strict node e.2) :
    Accepts strict (.object entries) (.object data)

/-- The schema asks for nothing at all, so that it allows a position to be missing. -/
inductive AllowsMissing : Value → Prop where
  /-- The tag of all values asks for nothing. -/
  | any : AllowsMissing (.string Tag.any.text)
  /-- A union asks for nothing when one of its alternatives does not. -/
  | union {schema alternative : Value} {alternatives : List Value}
    (hitems : schema.items? = some (.string "or" :: alternatives))
    (mem : alternative ∈ alternatives) (allows : AllowsMissing alternative) : AllowsMissing schema

end Schema

end ShapeSchema
