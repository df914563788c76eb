import ShapeSchema.Schema.Grammar

/-!
# Rewriting a schema

`Schema.everywhere change` makes a change at each node of a schema that is a container, below a node
before the node itself. What is no node is kept as it is: the members of an enumeration, a repeat
mark, and what stands for the strictness of an object.

Two such rewritings spell out what a schema leaves to be understood. `Schema.annotate strict`
declares the strictness of each object that does not declare its own, and `Schema.flatten` puts the
alternatives of a union that is itself an alternative in its place. Beside them stand the properties
of nodes that they bring about.

`Schema.madeOptional name` is a change to the entries of one object schema: a field of it is no
longer required.
-/

namespace ShapeSchema.Schema

mutual

/-- The schema with the change made at each node that is a container, the innermost first. -/
def everywhere (change : Value → Value) : Value → Value
  | .list items =>
    change (.list (if form items = .enumeration then items else elementsEverywhere change items))
  | .tuple items =>
    change (.tuple (if form items = .enumeration then items else elementsEverywhere change items))
  | .object entries => change (.object (itemsEverywhere change entries))
  | schema => schema
termination_by structural schema => schema

/-- The elements of a sequence with the change made in each. -/
def elementsEverywhere (change : Value → Value) : List Value → List Value
  | [] => []
  | schema :: rest => everywhere change schema :: elementsEverywhere change rest
termination_by structural schemas => schemas

/-- The entries of an object schema with the change made in the items that are nodes. -/
def itemsEverywhere (change : Value → Value) : List (Value × Value) → List (Value × Value)
  | [] => []
  | (key, schema) :: rest =>
    (key, if isNodeEntry key schema then everywhere change schema else schema) ::
      itemsEverywhere change rest
termination_by structural entries => entries

end

/-- The elements of a sequence with the change made, one by one. -/
theorem elementsEverywhere_eq_map (change : Value → Value) (schemas : List Value) :
    elementsEverywhere change schemas = schemas.map (everywhere change) := by
  induction schemas with
  | nil => rfl
  | cons schema rest ih => simp [elementsEverywhere, ih]

/-- The item of an entry of an object schema, with the change made if it is a node. -/
def itemEverywhere (change : Value → Value) (e : Value × Value) : Value :=
  if isNodeEntry e.1 e.2 then everywhere change e.2 else e.2

/-- The entries of an object schema with the change made, one by one. -/
theorem itemsEverywhere_eq_map (change : Value → Value) (entries : List (Value × Value)) :
    itemsEverywhere change entries = entries.map fun e => (e.1, itemEverywhere change e) := by
  induction entries with
  | nil => rfl
  | cons e rest ih => simp [itemsEverywhere, itemEverywhere, ih]

/-! ## Strictness -/

/-- Whether an object schema declares its strictness, and not as absent. -/
def declaresStrictness (entries : List (Value × Value)) : Bool :=
  (Entries.get? entries (.string strictKey)).any fun v => !v.isNull

/-- The entries of an object schema, with the given strictness as the last one if they declare
none. -/
def withStrictness (strict : Bool) (entries : List (Value × Value)) : List (Value × Value) :=
  if declaresStrictness entries then entries
  else
    entries.filter (fun e => !(Value.string strictKey).alike e.1) ++
      [(.string strictKey, .boolean strict)]

/-- An object schema with the given strictness if it declares none. Any other node is kept. -/
def declareStrictness (strict : Bool) : Value → Value
  | .object entries => .object (withStrictness strict entries)
  | schema => schema

/-- The schema with the given strictness declared for all objects that declare none. -/
def annotate (strict : Bool) : Value → Value := everywhere (declareStrictness strict)

/-- If the node is an object then it declares its strictness. -/
def DeclaresStrictness (node : Value) : Prop :=
  ∀ entries, node = .object entries → declaresStrictness entries = true

/-- If the node is an object then it has no optional field of the name that is reserved for
strictness. -/
def NoStrictnessField (node : Value) : Prop :=
  ∀ entries, node = .object entries →
    Entries.contains entries (.string (optionalKey strictKey)) = false

/-! ## Required fields -/

/-- The entries of an object schema with the required field of that name made optional, in its
place. -/
def madeOptional (name : String) (entries : List (Value × Value)) : List (Value × Value) :=
  entries.map fun e =>
    if (Value.string name).alike e.1 then (.string (optionalKey name), e.2) else e

/-! ## Nested unions -/

/-- What may stand for an alternative in a union: its own alternatives, if it is itself a union and
has any. -/
def spread (alternative : Value) : List Value :=
  match alternative.items? with
  | some items => if form items = .union ∧ 1 < items.length then items.drop 1 else [alternative]
  | none => [alternative]

/-- The elements of a union with all alternatives spread. Any other elements are kept. -/
def spreadAlternatives (items : List Value) : List Value :=
  if form items = .union then items.take 1 ++ (items.drop 1).flatMap spread else items

/-- A union with the alternatives of those alternatives that are unions and have any in their place.
Any other node is kept. -/
def inlineUnions : Value → Value
  | .list items => .list (spreadAlternatives items)
  | .tuple items => .tuple (spreadAlternatives items)
  | schema => schema

/-- The schema with nested unions made into one wherever this can be done. -/
def flatten : Value → Value := everywhere inlineUnions

/-- If the node is a union then none of its alternatives is a union with alternatives. -/
def Flat (node : Value) : Prop :=
  ∀ alternatives, node.items? = some (.string "or" :: alternatives) →
    ∀ alternative ∈ alternatives, ∀ inner,
      alternative.items? = some (.string "or" :: inner) → inner = []

/-! ## Enumerations -/

/-- The node is no enumeration. -/
def NoEnumeration (node : Value) : Prop :=
  ∀ items, node.items? = some items → form items ≠ .enumeration

/-- If the node is an enumeration then no member of it is the marker of a missing position. -/
def NoMissingMember (node : Value) : Prop :=
  ∀ members, node.items? = some (.string "enum" :: members) → Value.missing ∉ members

end ShapeSchema.Schema
