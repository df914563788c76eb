import ShapeSchema.Schema.Grammar
import ShapeSchema.Value.Equality

/-!
# Variations of a schema

How one schema may come from another. `Schema.AgreeTo` relates two schemas that are the same down
to a depth, `Schema.Reordered` two schemas that differ only in orders that say nothing, and a
`Schema.Context` is a schema with a hole in the place of a node, which `Schema.Context.fill` fills.

None of these looks at the members of an enumeration as nodes, and none tells a list from a tuple,
which mean the same in a schema.
-/

namespace ShapeSchema.Schema

/-- The second schema is the first with other containers in the place of any containers that lie
deeper than so many levels below the root. -/
inductive AgreeTo : Int → Value → Value → Prop where
  /-- Nothing is exchanged. -/
  | same (depth : Int) (schema : Value) : AgreeTo depth schema schema
  /-- Below the depth any container may stand for any other. -/
  | deeper {depth : Int} {schema schema' : Value} (hdepth : depth < 0)
    (hschema : schema.isContainer = true) (hschema' : schema'.isContainer = true) :
    AgreeTo depth schema schema'
  /-- The elements of unions and of array schemas lie one level deeper. -/
  | sequence {depth : Int} {schema schema' : Value} {items items' : List Value}
    (hitems : schema.items? = some items) (hitems' : schema'.items? = some items')
    (hform : form items ≠ .enumeration) (hlength : items.length = items'.length)
    (parts : ∀ p ∈ items.zip items', AgreeTo (depth - 1) p.1 p.2) : AgreeTo depth schema schema'
  /-- So do the nodes of an object schema. Its other entries are kept. -/
  | object {depth : Int} {entries entries' : List (Value × Value)}
    (hkeys : entries.map Prod.fst = entries'.map Prod.fst)
    (nodes : ∀ p ∈ entries.zip entries', isNodeEntry p.1.1 p.1.2 = true →
      AgreeTo (depth - 1) p.1.2 p.2.2)
    (others : ∀ p ∈ entries.zip entries', isNodeEntry p.1.1 p.1.2 = false → p.1.2 = p.2.2) :
    AgreeTo depth (.object entries) (.object entries')

/-- A schema without end, such as one that contains itself, is given by its unrollings: each of them
goes one level deeper and is the same as the one before down to where that one ends. -/
def Unrolls (unrolled : Nat → Value) : Prop :=
  ∀ n : Nat, AgreeTo n (unrolled n) (unrolled (n + 1))

/-- The second schema is the first with the members of enumerations, the alternatives of unions and
the entries of object schemas in other orders, at any nodes. -/
inductive Reordered : Value → Value → Prop where
  /-- Nothing is reordered. -/
  | same (schema : Value) : Reordered schema schema
  /-- The members of an enumeration in another order. -/
  | enumeration {schema schema' : Value} {members members' : List Value}
    (hitems : schema.items? = some (.string "enum" :: members))
    (hitems' : schema'.items? = some (.string "enum" :: members'))
    (perm : members.Perm members') : Reordered schema schema'
  /-- The alternatives of a union, reordered themselves, in another order. -/
  | union {schema schema' : Value} {alternatives middle alternatives' : List Value}
    (hitems : schema.items? = some (.string "or" :: alternatives))
    (hitems' : schema'.items? = some (.string "or" :: alternatives'))
    (hlength : alternatives.length = middle.length)
    (parts : ∀ p ∈ alternatives.zip middle, Reordered p.1 p.2)
    (perm : middle.Perm alternatives') : Reordered schema schema'
  /-- The elements of an array schema keep their places. -/
  | array {schema schema' : Value} {items items' : List Value}
    (hitems : schema.items? = some items) (hitems' : schema'.items? = some items')
    (hform : form items = .array) (hlength : items.length = items'.length)
    (parts : ∀ p ∈ items.zip items', Reordered p.1 p.2) : Reordered schema schema'
  /-- The entries of an object schema, whose items are reordered themselves, in another order. No
  key of an object is there twice. -/
  | object {entries middle entries' : List (Value × Value)}
    (distinct : (entries.map Prod.fst).Nodup)
    (hkeys : entries.map Prod.fst = middle.map Prod.fst)
    (parts : ∀ p ∈ entries.zip middle, Reordered p.1.2 p.2.2) (perm : middle.Perm entries') :
    Reordered (.object entries) (.object entries')

/-- A schema with a hole in the place of a node. What stands in front of the hole in a sequence
tells whether it is the place of an alternative or of an element of an array schema. -/
inductive Context where
  /-- The hole itself. -/
  | hole
  /-- A list with the hole in one of its elements, but not an enumeration. -/
  | list (before : List Value) (inner : Context) (after : List Value)
    (hform : form before ≠ .enumeration)
  /-- A tuple with the hole in one of its elements, but not an enumeration. -/
  | tuple (before : List Value) (inner : Context) (after : List Value)
    (hform : form before ≠ .enumeration)
  /-- An object schema with the hole in one of its fields or in what stands for uncovered keys. -/
  | object (before : List (Value × Value)) (key : Value) (inner : Context)
    (after : List (Value × Value)) (hkey : key ≠ .string strictKey)

namespace Context

/-- The schema that has the given node in the place of the hole. -/
def fill : Context → Value → Value
  | .hole, node => node
  | .list before inner after _, node => .list (before ++ inner.fill node :: after)
  | .tuple before inner after _, node => .tuple (before ++ inner.fill node :: after)
  | .object before key inner after _, node =>
    .object (before ++ (key, inner.fill node) :: after)

/-- How many levels below the root the hole lies. -/
def depth : Context → Nat
  | .hole => 0
  | .list _ inner _ _ => inner.depth + 1
  | .tuple _ inner _ _ => inner.depth + 1
  | .object _ _ inner _ _ => inner.depth + 1

end Context

end ShapeSchema.Schema
