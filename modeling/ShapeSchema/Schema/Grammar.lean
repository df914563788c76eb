import ShapeSchema.Schema.Sequence
import ShapeSchema.Schema.Object

/-!
# The grammar of schemas

`Schema.WellFormed` says which values are schemas, form by form and without any order of search or
limit of depth, and `Schema.height` is the number of levels that a schema has. The nodes of a
container schema are those of its parts that are schemas themselves: not the members of an
enumeration, not the word that tells the form, not a repeat mark at the end, and of an object
neither its strictness nor an absent schema for uncovered keys. `Schema.NodeAt` is the relation
between a schema and the nodes at each depth of it, and `Schema.EveryNode` says something of all of
them.
-/

namespace ShapeSchema.Schema

/-- Whether the last of several elements is a repeat mark. -/
def endsInMark : List Value → Bool
  | [] => false
  | [_] => false
  | [_, last] => (Repetition.ofValue? last).isSome
  | _ :: rest => endsInMark rest

/-- What belongs to the nodes of a sequence schema, out of a list of what belongs to all of its
elements. -/
def sequenceNodes {α : Type} (items : List Value) (parts : List α) : List α :=
  match form items with
  | .enumeration => []
  | .union => parts.drop 1
  | .array => if endsInMark items then parts.dropLast else parts

/-- Whether an entry of an object schema holds a node. -/
def isNodeEntry (key node : Value) : Bool :=
  match key with
  | .string s => s != strictKey && !(s == anyKey && node.isNull)
  | _ => true

/-- What belongs to the nodes of an object schema, out of a list of what belongs to all of its
items. -/
def objectNodes {α : Type} (entries : List (Value × Value)) (parts : List α) : List α :=
  ((entries.zip parts).filter fun p => isNodeEntry p.1.1 p.1.2).map Prod.snd

/-- The nodes right below a schema. -/
def children : Value → List Value
  | .list items => sequenceNodes items items
  | .tuple items => sequenceNodes items items
  | .object entries => objectNodes entries (entries.map Prod.snd)
  | _ => []

/-- The node lies so many levels below the root of the schema. -/
inductive NodeAt : Nat → Value → Value → Prop where
  /-- The root lies at no depth. -/
  | root (schema : Value) : NodeAt 0 schema schema
  /-- What lies below a child lies one level deeper. -/
  | deeper {depth : Nat} {schema child node : Value} (mem : child ∈ children schema)
    (hnode : NodeAt depth child node) : NodeAt (depth + 1) schema node

/-- Each node of the schema, at whatever depth, has the property. -/
def EveryNode (P : Value → Prop) (schema : Value) : Prop :=
  ∀ depth node, NodeAt depth schema node → P node

/-- One level more than the greatest height below, if there is anything below. -/
def heightAbove : List Nat → Nat
  | [] => 0
  | h :: hs => (h :: hs).foldr max 0 + 1

mutual

/-- The number of levels of a schema below its root. -/
def height : Value → Nat
  | .list items => heightAbove (sequenceNodes items (heights items))
  | .tuple items => heightAbove (sequenceNodes items (heights items))
  | .object entries => heightAbove (objectNodes entries (itemHeights entries))
  | _ => 0
termination_by structural schema => schema

/-- The heights of the elements of a sequence. -/
def heights : List Value → List Nat
  | [] => []
  | schema :: rest => height schema :: heights rest
termination_by structural schemas => schemas

/-- The heights of the items of an object. -/
def itemHeights : List (Value × Value) → List Nat
  | [] => []
  | (_, schema) :: rest => height schema :: itemHeights rest
termination_by structural entries => entries

end

/-- The heights of a sequence, one by one. -/
theorem heights_eq_map (schemas : List Value) : heights schemas = schemas.map height := by
  induction schemas with
  | nil => rfl
  | cons schema rest ih => simp [heights, ih]

/-- The heights of the items of an object, one by one. -/
theorem itemHeights_eq_map (entries : List (Value × Value)) :
    itemHeights entries = entries.map fun e => height e.2 := by
  induction entries with
  | nil => rfl
  | cons e rest ih => simp [itemHeights, ih]

/-- Every key of some entries is a text. -/
def TextKeys (entries : List (Value × Value)) : Prop := ∀ e ∈ entries, ∃ s, e.1 = .string s

/-- What holds of the declarations of an object schema: no field is declared both as required and as
optional, and the strictness, if there is any, is a truth value. -/
structure SoundEntries (entries : List (Value × Value)) : Prop where
  /-- No field is declared twice. -/
  distinct : ∀ name : String, Entries.contains entries (.string name) = true →
    Entries.contains entries (.string (optionalKey name)) = false
  /-- The strictness is absent or a truth value. -/
  strictness : ∀ v, Entries.get? entries (.string strictKey) = some v →
    v = .null ∨ ∃ b, v = .boolean b

/-- The object nodes of the schema, at whatever depth, have only texts as keys. -/
def TextKeyed (schema : Value) : Prop :=
  ∀ depth entries, NodeAt depth schema (.object entries) → TextKeys entries

/-- The object nodes of the schema, at whatever depth, have only plain keys. -/
def PlainKeyed (schema : Value) : Prop :=
  ∀ depth entries, NodeAt depth schema (.object entries) → ∀ e ∈ entries, e.1.isPlainKey = true

/-- The values that are schemas. -/
inductive WellFormed : Value → Prop where
  /-- A tag is a schema. -/
  | tag (t : Tag) : WellFormed (.string t.text)
  /-- A sequence is a schema when its nodes are. -/
  | sequence {schema : Value} {items : List Value} (hitems : schema.items? = some items)
    (nodes : ∀ node ∈ sequenceNodes items items, WellFormed node) : WellFormed schema
  /-- An object is a schema when its keys are texts, its declarations are sound, and its nodes are
  schemas. -/
  | object {entries : List (Value × Value)} (text : TextKeys entries) (sound : SoundEntries entries)
    (nodes : ∀ e ∈ entries, isNodeEntry e.1 e.2 = true → WellFormed e.2) :
    WellFormed (.object entries)

end ShapeSchema.Schema
