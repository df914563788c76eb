import ShapeSchema.Conformance.Run
import ShapeSchema.Schema.Sequence
import ShapeSchema.Schema.Object

/-!
# Holding a value against a schema

`Schema.run` is the meaning of a schema: a function from the room that is left and a value to a run.
The meaning of a container schema is put together from the meanings of its parts by one combinator
for each form of schema, and each of these says only what is particular to its form.

A schema is walked through exactly as far as the data reach. A part is held against its value with
one level of room less than the whole. Where no room is left the run ends in the problem of that
name, and this ends a union too, which otherwise drops the violations of its alternatives.
-/

namespace ShapeSchema

/-- The meaning of a schema, given the room that is left. -/
abbrev Checker := Int → Value → Run

/-- A schema node and its meaning. -/
structure Node where
  /-- The schema as it is written. -/
  schema : Value
  /-- What it asks of a value. -/
  check : Checker

namespace Node

/-- The run of a part of a schema against a part of the value, one level down. -/
def runUnder (node : Node) (room : Int) (s : Step) (v : Value) : Run :=
  (node.check (room - 1) v).under s

end Node

namespace Checker

/-- Whether a value belongs to the class that a tag names. Most tags name a kind. -/
def tagAccepts : Tag → Value → Bool
  | .integer, v => v.isInteger
  | .array, v => v.isSequence
  | .any, _ => true
  | tag, v => v.kind.text == tag.text

/-- The meaning of a node that is no container. Only tags have one. -/
def scalar (schema : Value) : Checker := fun _ v =>
  match schema with
  | .string s =>
    match Tag.ofText? s with
    | some tag =>
      if tagAccepts tag v then .conforming else .problem (.typeMismatch tag v.kind.text)
    | none => .problem (.invalidNode schema.render)
  | _ => .problem (.invalidNode schema.render)

/-- An enumeration takes the values that are the same as one of its members. -/
def enumeration (members : List Value) : Checker := fun _ v =>
  if members.any fun member => v.same member then .conforming
  else .problem (.enumMismatch (Schema.enumerationLabel members) v.render)

/-- The problem of a value that no alternative takes. -/
def unionProblem (alternatives : List Node) (v : Value) : Problem :=
  .unionMismatch (Schema.unionLabel (alternatives.map fun node => Schema.label node.schema))
    v.kind.text

/-- Tries the last nodes of some alternatives in order. The violations of those that are passed
over are noted and dropped, but where no room is left the attempt ends. -/
def attempt (alternatives : List Node) (room : Int) (v : Value) : List Node → Run
  | [] => .problem (unionProblem alternatives v)
  | node :: rest =>
    (node.check (room - 1) v).orElse (Schema.label node.schema) fun _ =>
      attempt alternatives room v rest

/-- A union takes what one of its alternatives takes. -/
def union (alternatives : List Node) : Checker := fun room v =>
  attempt alternatives room v alternatives

/-- Nodes held against elements position by position, the first of them at the given index. -/
def positions (room : Int) (start : Nat) (nodes : List Node) (items : List Value) : Run :=
  Run.forEach (fun p => p.1.1.runUnder room (.index p.2) p.1.2) ((nodes.zip items).zipIdx start)

/-- One node held against all elements, the first of them at the given index. -/
def repeated (room : Int) (start : Nat) (node : Node) (items : List Value) : Run :=
  Run.forEach (fun p => node.runUnder room (.index p.2) p.1) (items.zipIdx start)

/-- The last two nodes of an array schema held against the elements from an index on. If the second
is a repeat mark then the first stands for all of them, and otherwise each node stands for one. -/
def arrayEnd (room : Int) (start : Nat) (node last : Node) (items : List Value) : Run :=
  match Repetition.ofValue? last.schema with
  | some .atLeastOnce =>
    if items.isEmpty then .problem .tooFewElements else repeated room start node items
  | some .anyNumber => repeated room start node items
  | none =>
    if items.length < 2 then .problem .tooFewElements
    else if 2 < items.length then .problem .tooManyElements
    else positions room start [node, last] items

/-- The elements of an array held against the nodes of an array schema. A lone node is asked about
the first position alone, whether or not the data have it, and no length is asked for. -/
def elements (room : Int) (nodes : List Node) (items : List Value) : Run :=
  match nodes.reverse with
  | [] => if items.isEmpty then .conforming else .problem .notEmpty
  | [node] => node.runUnder room (.index 0) (items.head?.getD .missing)
  | last :: node :: lead =>
    -- The last two nodes decide together how many elements there may be in the end, but this is
    -- asked for only after the elements in front of them have been checked.
    if items.length < lead.length then .problem .tooFewElements
    else
      (positions room 0 lead.reverse items).andThen fun _ =>
        arrayEnd room lead.length node last (items.drop lead.length)

/-- An array schema with the given nodes. -/
def array (nodes : List Node) : Checker := fun room v =>
  match v.items? with
  | some items => elements room nodes items
  | none => .problem (.typeMismatch .array v.kind.text)

/-- A sequence schema with the given elements, in the form that they have. -/
def sequence (items : List Value) (nodes : List Node) : Checker :=
  match Schema.form items with
  | .enumeration => enumeration (items.drop 1)
  | .union => union (nodes.drop 1)
  | .array => array nodes

/-- One entry of the data held against what governs its key. -/
def entry (strict : Bool) (fields : List (Value × Node)) (room : Int) (e : Value × Value) : Run :=
  match Schema.governing? (fun node => node.schema.isNull) fields e.1 with
  | some node => node.runUnder room (.key e.1) e.2
  | none =>
    if strict then .silent (.violates ⟨[.key e.1], .unrecognizedKey⟩) else .conforming

/-- The first of the required keys that data lack. -/
def missingKey? (required : List String) (data : List (Value × Value)) : Option String :=
  required.find? fun name => !Entries.contains data (.string name)

/-- Data held against an object schema with the given fields: nothing may be wrong with the schema,
no required key may be missing, and then the entries are checked in the order of the data. -/
def entries (strict : Bool) (schema : List (Value × Value)) (fields : List (Value × Node))
    (room : Int) (data : List (Value × Value)) : Run :=
  match Schema.objectVerdict schema with
  | .conforms =>
    match Schema.requiredKeys schema with
    | .error fault => .silent (.faults fault)
    | .ok required =>
      match missingKey? required data with
      | some name => .silent (.violates ⟨[.key (.string name)], .missingKey⟩)
      | none =>
        Run.forEach (entry (Schema.strictness schema strict) fields room) data
  | verdict => .silent verdict

/-- An object schema with the given entries and fields. -/
def object (strict : Bool) (schema : List (Value × Value)) (fields : List (Value × Node)) :
    Checker := fun room v =>
  match v.entries? with
  | some data => entries strict schema fields room data
  | none => .problem (.typeMismatch .object v.kind.text)

end Checker

namespace Schema

mutual

/-- Holds a value against a schema, with room for so many levels of the schema below this one.
`strict` says whether objects that do not say so themselves refuse keys that nothing covers. -/
def run (strict : Bool) : Value → Checker
  | .list items, room, v =>
    if room < 0 then .tooDeep else Checker.sequence items (nodes strict items) room v
  | .tuple items, room, v =>
    if room < 0 then .tooDeep else Checker.sequence items (nodes strict items) room v
  | .object entries, room, v =>
    if room < 0 then .tooDeep
    else Checker.object strict entries (fields strict entries) room v
  | schema, room, v => if room < 0 then .tooDeep else Checker.scalar schema room v
termination_by structural schema => schema

/-- The elements of a sequence schema as nodes. -/
def nodes (strict : Bool) : List Value → List Node
  | [] => []
  | schema :: rest => ⟨schema, run strict schema⟩ :: nodes strict rest
termination_by structural schemas => schemas

/-- The entries of an object schema with their items as nodes. -/
def fields (strict : Bool) : List (Value × Value) → List (Value × Node)
  | [] => []
  | (key, schema) :: rest => (key, ⟨schema, run strict schema⟩) :: fields strict rest
termination_by structural entries => entries

end

/-- The node of a schema. -/
def node (strict : Bool) (schema : Value) : Node := ⟨schema, run strict schema⟩

/-- The nodes of a sequence, one by one. -/
theorem nodes_eq_map (strict : Bool) (schemas : List Value) :
    nodes strict schemas = schemas.map (node strict) := by
  induction schemas with
  | nil => rfl
  | cons schema rest ih => simp [nodes, node, ih]

/-- The fields of an object schema, entry by entry. -/
theorem fields_eq_map (strict : Bool) (entries : List (Value × Value)) :
    fields strict entries = entries.map fun e => (e.1, node strict e.2) := by
  induction entries with
  | nil => rfl
  | cons e rest ih => simp [fields, node, ih]

/-- The depth limit that applies when the caller names none. -/
def defaultLimit : Int := 200

end Schema

end ShapeSchema
