import ShapeSchema.Conformance.Answer

/-!
# Walks that carry the path

A run does not know where it was started. It finds steps, and its answer puts them behind a start
path in the end. The walks here carry a path with them instead, a text that grows by a step wherever
they go down, and put into words on the spot what they find. `Schema.tell` holds a value against a
schema in this way and `Schema.tellAudit` audits one.

`Answer.SameBehind` says of two answers that they differ in the start path alone.
-/

namespace ShapeSchema

/-- What has been told: the lines that were logged, and the answer. -/
structure Told where
  /-- The lines, in order. -/
  lines : List String
  /-- The answer. -/
  answer : Answer

/-- Whether the code of a report is that of a lack of room. -/
def Report.isTooDeep (r : Report) : Bool :=
  match r.code with
  | .string s => s == ReasonCode.maxDepthExceeded.text
  | _ => false

/-- One answer, and the next one if there is nothing to tell. -/
def Answer.andThen (a : Answer) (next : Unit → Answer) : Answer :=
  match a with
  | .nothing => next ()
  | _ => a

/-- The first answer in order that tells something. -/
def Answer.forEach {α : Type} (tell : α → Answer) : List α → Answer
  | [] => .nothing
  | a :: rest => (tell a).andThen fun _ => forEach tell rest

namespace Told

/-- A verdict at a path, put into words without any lines. -/
def ofVerdict (path : String) (limit : Int) (verdict : Verdict) : Told :=
  ⟨[], verdict.answer path limit⟩

/-- What is told with lines that were logged before it. -/
def after (lines : List String) (t : Told) : Told := ⟨lines ++ t.lines, t.answer⟩

/-- One thing told, and the next one if there is nothing to tell. -/
def andThen (t : Told) (next : Unit → Told) : Told :=
  match t.answer with
  | .nothing => (next ()).after t.lines
  | _ => t

/-- One thing told, and the next one if it is a report, unless of a lack of room. The report is
dropped, and the lines say so. -/
def orElse (path alternative : String) (t : Told) (next : Unit → Told) : Told :=
  match t.answer with
  | .report r =>
    if r.isTooDeep then t
    else
      (next ()).after (t.lines ++
        ["'" ++ path ++ "': alternative '" ++ alternative ++ "' rejected: " ++ r.reason])
  | _ => t

/-- Things told in order, up to the first that is not nothing. -/
def forEach {α : Type} (tell : α → Told) : List α → Told
  | [] => ⟨[], .nothing⟩
  | a :: rest => (tell a).andThen fun _ => forEach tell rest

/-- What is told where no room is left. -/
def tooDeep (path : String) (limit : Int) : Told :=
  ⟨["'" ++ path ++ "': nesting depth limit " ++ toString limit ++ " reached"],
    (Verdict.problem .tooDeep).answer path limit⟩

end Told

/-- The walk through a schema, given the room that is left, the path at hand and the value there. -/
abbrev Teller := Int → String → Value → Told

/-- A schema node and the walk through it. -/
structure TellingNode where
  /-- The schema as it is written. -/
  schema : Value
  /-- What it has to tell of a value. -/
  tell : Teller

namespace Teller

variable (limit : Int)

/-- Tells what a node that is no container finds. -/
def scalar (schema : Value) : Teller := fun room path v =>
  .ofVerdict path limit (Checker.scalar schema room v).verdict

/-- Tells whether a value is a member of an enumeration. -/
def enumeration (members : List Value) : Teller := fun room path v =>
  .ofVerdict path limit (Checker.enumeration members room v).verdict

/-- Tries the last of some alternatives in order, all of them at the same path. -/
def attempt (alternatives : List TellingNode) (room : Int) (path : String) (v : Value) :
    List TellingNode → Told
  | [] =>
    .ofVerdict path limit (.problem (.unionMismatch
      (Schema.unionLabel (alternatives.map fun node => Schema.label node.schema)) v.kind.text))
  | node :: rest =>
    (node.tell (room - 1) path v).orElse path (Schema.label node.schema) fun _ =>
      attempt alternatives room path v rest

/-- Tells of a union. -/
def union (alternatives : List TellingNode) : Teller := fun room path v =>
  attempt limit alternatives room path v alternatives

/-- Tells of elements position by position, the first of them at the given index. -/
def positions (room : Int) (path : String) (start : Nat) (nodes : List TellingNode)
    (items : List Value) : Told :=
  Told.forEach (fun p => p.1.1.tell (room - 1) (indexPath path p.2) p.1.2)
    ((nodes.zip items).zipIdx start)

/-- Tells of all elements against one node, the first of them at the given index. -/
def repeated (room : Int) (path : String) (start : Nat) (node : TellingNode) (items : List Value) :
    Told :=
  Told.forEach (fun p => node.tell (room - 1) (indexPath path p.2) p.1) (items.zipIdx start)

/-- Tells of the elements from an index on against the last two nodes of an array schema. -/
def arrayEnd (room : Int) (path : String) (start : Nat) (node last : TellingNode)
    (items : List Value) : Told :=
  match Repetition.ofValue? last.schema with
  | some .atLeastOnce =>
    if items.isEmpty then .ofVerdict path limit (.problem .tooFewElements)
    else repeated room path start node items
  | some .anyNumber => repeated room path start node items
  | none =>
    if items.length < 2 then .ofVerdict path limit (.problem .tooFewElements)
    else if 2 < items.length then .ofVerdict path limit (.problem .tooManyElements)
    else positions room path start [node, last] items

/-- Tells of the elements of an array. -/
def elements (room : Int) (path : String) (nodes : List TellingNode) (items : List Value) : Told :=
  match nodes.reverse with
  | [] => .ofVerdict path limit (if items.isEmpty then .conforms else .problem .notEmpty)
  | [node] => node.tell (room - 1) (indexPath path 0) (items.head?.getD .missing)
  | last :: node :: lead =>
    if items.length < lead.length then .ofVerdict path limit (.problem .tooFewElements)
    else
      (positions room path 0 lead.reverse items).andThen fun _ =>
        arrayEnd limit room path lead.length node last (items.drop lead.length)

/-- Tells of an array. -/
def array (nodes : List TellingNode) : Teller := fun room path v =>
  match v.items? with
  | some items => elements limit room path nodes items
  | none => .ofVerdict path limit (.problem (.typeMismatch .array v.kind.text))

/-- Tells of a sequence schema with the given elements, in the form that they have. -/
def sequence (items : List Value) (nodes : List TellingNode) : Teller :=
  match Schema.form items with
  | .enumeration => enumeration limit (items.drop 1)
  | .union => union limit (nodes.drop 1)
  | .array => array limit nodes

/-- Tells of one entry of the data. -/
def entry (refuses : Bool) (fields : List (Value × TellingNode)) (room : Int) (path : String)
    (e : Value × Value) : Told :=
  match Schema.governing? (fun node => node.schema.isNull) fields e.1 with
  | some node => node.tell (room - 1) (keyPath path e.1) e.2
  | none =>
    .ofVerdict (keyPath path e.1) limit (if refuses then .problem .unrecognizedKey else .conforms)

/-- Tells of data against an object schema. -/
def entries (strict : Bool) (schema : List (Value × Value)) (fields : List (Value × TellingNode))
    (room : Int) (path : String) (data : List (Value × Value)) : Told :=
  match Schema.objectVerdict schema with
  | .conforms =>
    match Schema.requiredKeys schema with
    | .error fault => .ofVerdict path limit (.faults fault)
    | .ok required =>
      match Checker.missingKey? required data with
      | some name => .ofVerdict (keyPath path (.string name)) limit (.problem .missingKey)
      | none =>
        Told.forEach (entry limit (Schema.strictness schema strict) fields room path) data
  | verdict => .ofVerdict path limit verdict

/-- Tells of an object. -/
def object (strict : Bool) (schema : List (Value × Value)) (fields : List (Value × TellingNode)) :
    Teller := fun room path v =>
  match v.entries? with
  | some data => entries limit strict schema fields room path data
  | none => .ofVerdict path limit (.problem (.typeMismatch .object v.kind.text))

end Teller

namespace Schema

mutual

/-- Holds a value against a schema and tells what is found, with the path at hand. -/
def tell (strict : Bool) (limit : Int) : Value → Teller
  | .list items, room, path, v =>
    if room < 0 then .tooDeep path limit
    else Teller.sequence limit items (tellingNodes strict limit items) room path v
  | .tuple items, room, path, v =>
    if room < 0 then .tooDeep path limit
    else Teller.sequence limit items (tellingNodes strict limit items) room path v
  | .object entries, room, path, v =>
    if room < 0 then .tooDeep path limit
    else Teller.object limit strict entries (tellingFields strict limit entries) room path v
  | schema, room, path, v =>
    if room < 0 then .tooDeep path limit else Teller.scalar limit schema room path v
termination_by structural schema => schema

/-- The elements of a sequence schema with the walks through them. -/
def tellingNodes (strict : Bool) (limit : Int) : List Value → List TellingNode
  | [] => []
  | schema :: rest => ⟨schema, tell strict limit schema⟩ :: tellingNodes strict limit rest
termination_by structural schemas => schemas

/-- The entries of an object schema with the walks through their items. -/
def tellingFields (strict : Bool) (limit : Int) :
    List (Value × Value) → List (Value × TellingNode)
  | [] => []
  | (key, schema) :: rest =>
    (key, ⟨schema, tell strict limit schema⟩) :: tellingFields strict limit rest
termination_by structural entries => entries

end

/-- The node of a schema with the walk through it. -/
def tellingNode (strict : Bool) (limit : Int) (schema : Value) : TellingNode :=
  ⟨schema, tell strict limit schema⟩

/-- The nodes of a sequence, one by one. -/
theorem tellingNodes_eq_map (strict : Bool) (limit : Int) (schemas : List Value) :
    tellingNodes strict limit schemas = schemas.map (tellingNode strict limit) := by
  induction schemas with
  | nil => rfl
  | cons schema rest ih => rw [tellingNodes, ih, List.map_cons, tellingNode]

/-- The fields of an object schema, entry by entry. -/
theorem tellingFields_eq_map (strict : Bool) (limit : Int) (entries : List (Value × Value)) :
    tellingFields strict limit entries =
      entries.map fun e => (e.1, tellingNode strict limit e.2) := by
  induction entries with
  | nil => rfl
  | cons e rest ih => rw [tellingFields, ih, List.map_cons, tellingNode]

/-! ## Audits -/

/-- The audit of one node that tells what it finds, given the room that is left and the path at
hand. -/
abbrev TellingAudit := Int → String → Answer

/-- Tells of the elements of an array schema, from an index on. -/
def tellElements (room : Int) (path : String) (index : Nat) : List (Value × TellingAudit) → Answer
  | [] => .nothing
  | (node, audit) :: rest =>
    if rest.isEmpty && index != 0 && (Repetition.ofValue? node).isSome then .nothing
    else
      (audit (room - 1) (indexPath path index)).andThen fun _ =>
        tellElements room path (index + 1) rest

/-- Tells of one entry of an object schema. -/
def tellEntry (room : Int) (path : String) (e : Value × Value × TellingAudit) : Answer :=
  match e with
  | (key, node, audit) =>
    match key with
    | .string s =>
      if s = strictKey then .nothing
      else if s = anyKey then
        if node.isNull then .nothing else audit (room - 1) (keyPath path key)
      else audit (room - 1) (keyPath path (fieldName key))
    | _ => audit (room - 1) (keyPath path key)

/-- Tells of a sequence schema. The alternatives of a union are at the path of the union. -/
def tellSequence (items : List Value) (audits : List (Value × TellingAudit)) : TellingAudit :=
  fun room path =>
    match form items with
    | .enumeration => .nothing
    | .union => Answer.forEach (fun e => e.2 (room - 1) path) (audits.drop 1)
    | .array => tellElements room path 0 audits

/-- Tells of an object schema. -/
def tellObject (limit : Int) (entries : List (Value × Value))
    (audits : List (Value × Value × TellingAudit)) : TellingAudit := fun room path =>
  ((objectVerdict entries).answer path limit).andThen fun _ =>
    Answer.forEach (tellEntry room path) audits

mutual

/-- Audits a schema and tells its first mistake, with the path at hand. -/
def tellAudit (limit : Int) : Value → TellingAudit
  | .list items, room, path =>
    if room < 0 then (Verdict.problem .tooDeep).answer path limit
    else tellSequence items (tellingAudits limit items) room path
  | .tuple items, room, path =>
    if room < 0 then (Verdict.problem .tooDeep).answer path limit
    else tellSequence items (tellingAudits limit items) room path
  | .object entries, room, path =>
    if room < 0 then (Verdict.problem .tooDeep).answer path limit
    else tellObject limit entries (tellingEntryAudits limit entries) room path
  | node, room, path =>
    if room < 0 then (Verdict.problem .tooDeep).answer path limit
    else (auditScalar node room).answer path limit
termination_by structural node => node

/-- The nodes of a sequence with the audits that tell of them. -/
def tellingAudits (limit : Int) : List Value → List (Value × TellingAudit)
  | [] => []
  | node :: rest => (node, tellAudit limit node) :: tellingAudits limit rest
termination_by structural nodes => nodes

/-- The entries of an object schema with the audits that tell of their items. -/
def tellingEntryAudits (limit : Int) :
    List (Value × Value) → List (Value × Value × TellingAudit)
  | [] => []
  | (key, node) :: rest => (key, node, tellAudit limit node) :: tellingEntryAudits limit rest
termination_by structural entries => entries

end

/-- The audits of a sequence, node by node. -/
theorem tellingAudits_eq_map (limit : Int) (nodes : List Value) :
    tellingAudits limit nodes = nodes.map fun node => (node, tellAudit limit node) := by
  induction nodes with
  | nil => rfl
  | cons node rest ih => rw [tellingAudits, ih, List.map_cons]

/-- The audits of entries, one by one. -/
theorem tellingEntryAudits_eq_map (limit : Int) (entries : List (Value × Value)) :
    tellingEntryAudits limit entries = entries.map fun e => (e.1, e.2, tellAudit limit e.2) := by
  induction entries with
  | nil => rfl
  | cons e rest ih => rw [tellingEntryAudits, ih, List.map_cons]

/-- The path at which a check starts: no path counts as the empty one. -/
def startPath (path : Option String) : String := path.getD ""

end Schema

/-- The answers tell the same behind two start paths: both tell nothing, or both the same fault, or
they are reports with one code and one wording behind the path in quotes, whose paths come from one
list of steps. -/
inductive Answer.SameBehind (start start' : String) : Answer → Answer → Prop where
  /-- There is nothing to tell. -/
  | nothing : SameBehind start start' .nothing .nothing
  /-- The schema cannot be read. -/
  | fault (f : Fault) : SameBehind start start' (.fault f) (.fault f)
  /-- Something is wrong. -/
  | report (code : ReasonCode) (text : String) (steps : Location) :
    SameBehind start start'
      (.report ⟨"'" ++ steps.path start ++ "': " ++ text, .string code.text,
        .string (steps.path start), []⟩)
      (.report ⟨"'" ++ steps.path start' ++ "': " ++ text, .string code.text,
        .string (steps.path start'), []⟩)

end ShapeSchema
