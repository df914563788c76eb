import ShapeSchema.Schema.Sequence
import ShapeSchema.Schema.Object

/-!
# Auditing a schema

`Schema.audit` walks through every branch of a schema, whether or not any data would reach it, and
reports the first mistake in it. The members of an enumeration are data and are not looked at. Each
step down uses up one level of the room that is left, and a node for which no room is left is a
mistake of its own, so that a schema without end is refused as well.
-/

namespace ShapeSchema.Schema

/-- The audit of one node, given the room that is left for it. -/
abbrev Audit := Int → Verdict

/-- The audit of the elements of an array schema, from an index on. A repeat mark is passed over
when it is the last of several elements. -/
def auditElements (room : Int) (index : Nat) : List (Value × Audit) → Verdict
  | [] => .conforms
  | (node, audit) :: rest =>
    -- A lone repeat mark repeats nothing, and is no schema either.
    if rest.isEmpty && index != 0 && (Repetition.ofValue? node).isSome then .conforms
    else
      ((audit (room - 1)).under (.index index)).andThen fun _ =>
        auditElements room (index + 1) rest

/-- The audit of one entry of an object schema. Strictness is no schema, and an absent schema for
uncovered keys is passed over. -/
def auditEntry (room : Int) (e : Value × Value × Audit) : Verdict :=
  match e with
  | (key, node, audit) =>
    match key with
    | .string s =>
      if s = strictKey then .conforms
      else if s = anyKey then
        if node.isNull then .conforms else (audit (room - 1)).under (.key key)
      else (audit (room - 1)).under (.key (fieldName key))
    | _ => (audit (room - 1)).under (.key key)

/-- The audit of a sequence schema whose elements have the given audits. -/
def auditSequence (items : List Value) (audits : List (Value × Audit)) : Audit := fun room =>
  match form items with
  | .enumeration => .conforms
  | .union => Verdict.forEach (fun e => e.2 (room - 1)) (audits.drop 1)
  | .array => auditElements room 0 audits

/-- The audit of an object schema whose items have the given audits. -/
def auditObject (entries : List (Value × Value)) (audits : List (Value × Value × Audit)) :
    Audit := fun room =>
  (objectVerdict entries).andThen fun _ => Verdict.forEach (auditEntry room) audits

/-- The audit of a node that is no container: it has to be a tag. -/
def auditScalar (node : Value) : Audit := fun _ =>
  match node with
  | .string s => if (Tag.ofText? s).isSome then .conforms else .problem (.invalidNode node.render)
  | _ => .problem (.invalidNode node.render)

mutual

/-- The first mistake of a schema, with room for so many levels below it. -/
def audit : Value → Audit
  | .list items, room =>
    if room < 0 then .problem .tooDeep else auditSequence items (audits items) room
  | .tuple items, room =>
    if room < 0 then .problem .tooDeep else auditSequence items (audits items) room
  | .object entries, room =>
    if room < 0 then .problem .tooDeep else auditObject entries (entryAudits entries) room
  | node, room => if room < 0 then .problem .tooDeep else auditScalar node room
termination_by structural node => node

/-- The nodes of a sequence with their audits. -/
def audits : List Value → List (Value × Audit)
  | [] => []
  | node :: rest => (node, audit node) :: audits rest
termination_by structural nodes => nodes

/-- The entries of an object schema with the audits of their items. -/
def entryAudits : List (Value × Value) → List (Value × Value × Audit)
  | [] => []
  | (key, node) :: rest => (key, node, audit node) :: entryAudits rest
termination_by structural entries => entries

end

/-- The audits of a sequence, node by node. -/
theorem audits_eq_map (nodes : List Value) :
    audits nodes = nodes.map fun node => (node, audit node) := by
  induction nodes with
  | nil => rfl
  | cons node rest ih => simp [audits, ih]

/-- The audits of entries, one by one. -/
theorem entryAudits_eq_map (entries : List (Value × Value)) :
    entryAudits entries = entries.map fun e => (e.1, e.2, audit e.2) := by
  induction entries with
  | nil => rfl
  | cons e rest ih => simp [entryAudits, ih]

end ShapeSchema.Schema
