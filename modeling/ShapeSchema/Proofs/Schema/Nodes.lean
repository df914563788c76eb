import ShapeSchema.Schema.Grammar

/-!
# The nodes of a schema

Whatever is defined by walking through a schema looks at a node and goes on to its children. This
module says so of the definitions of the grammar, so that proofs about them are inductions over
`children` (`induct_children`) and need not tell lists from tuples: `height_le_iff` does it for
the height, and `wellFormed_iff` for the grammar, where `SoundNode` is what the grammar asks of a
node itself. `NodeAt.le_height` and `WellFormed.soundNode` then speak of the nodes at every depth;
a property of all of them is one of the root and of the nodes of each child (`EveryNode.child`,
`everyNode_of_children`, `plainKeyed_of_children`).

`Blames` says that a verdict is the fault of some node of the schema and not of the data. It is
carried from a child to the whole schema (`Blames.parent`), and `Blames.of_textKeyed` tells what
such a verdict amounts to.
-/

namespace ShapeSchema

/-- The values that have elements are the lists and the tuples. -/
theorem Value.items?_eq_some_iff {v : Value} {items : List Value} :
    v.items? = some items ↔ v = .list items ∨ v = .tuple items := by
  cases v <;> simp [Value.items?]

/-- The values that have entries are the objects. -/
theorem Value.entries?_eq_some_iff {v : Value} {entries : List (Value × Value)} :
    v.entries? = some entries ↔ v = .object entries := by
  cases v <;> simp [Value.entries?]

/-- What is no container has neither elements nor entries. -/
theorem Value.isContainer_eq_false_iff {v : Value} :
    v.isContainer = false ↔ v.items? = none ∧ v.entries? = none := by
  cases v <;>
    simp [Value.isContainer, Value.isSequence, Value.isMapping, Value.items?, Value.entries?]

/-- A list is empty, or has one element, or ends in two. -/
theorem exists_append_pair {α : Type} (as : List α) :
    as = [] ∨ (∃ a, as = [a]) ∨ ∃ lead a b, as = lead ++ [a, b] := by
  rcases List.eq_nil_or_concat as with rfl | ⟨front, b, rfl⟩
  · exact .inl rfl
  · rcases List.eq_nil_or_concat front with rfl | ⟨lead, a, rfl⟩
    · exact .inr (.inl ⟨b, rfl⟩)
    · exact .inr (.inr ⟨lead, a, b, by simp⟩)

namespace Schema

/-- A schema is a sequence, or an object, or no container. -/
theorem kinds (schema : Value) :
    (∃ items, schema.items? = some items) ∨ (∃ entries, schema = .object entries) ∨
      (schema.items? = none ∧ schema.entries? = none) := by
  cases schema <;> simp [Value.items?, Value.entries?]

/-- The form of an enumeration. -/
theorem form_eq_enumeration_iff {items : List Value} :
    form items = .enumeration ↔ ∃ members, items = .string "enum" :: members := by
  cases items with
  | nil => simp [form]
  | cons first rest =>
    cases first with
    | string s => by_cases henum : s = "enum" <;> by_cases hor : s = "or" <;> simp_all [form]
    | _ => simp [form]

/-- The form of a union. -/
theorem form_eq_union_iff {items : List Value} :
    form items = .union ↔ ∃ alternatives, items = .string "or" :: alternatives := by
  cases items with
  | nil => simp [form]
  | cons first rest =>
    cases first with
    | string s => by_cases henum : s = "enum" <;> by_cases hor : s = "or" <;> simp_all [form]
    | _ => simp [form]

/-- The elements of an array schema that are nodes. -/
def arrayNodes (items : List Value) : List Value :=
  if endsInMark items then items.dropLast else items

/-- Whether elements end in a mark is told by the last of them, if there are two at least. -/
theorem endsInMark_append_pair (lead : List Value) (node last : Value) :
    endsInMark (lead ++ [node, last]) = (Repetition.ofValue? last).isSome := by
  induction lead with
  | nil => rfl
  | cons first lead ih =>
    rw [← ih]
    cases lead with
    | nil => rfl
    | cons second lead => cases lead <;> rfl

/-- The nodes of an array schema with two elements at least. -/
theorem arrayNodes_append_pair (lead : List Value) (node last : Value) :
    arrayNodes (lead ++ [node, last]) =
      if (Repetition.ofValue? last).isSome then lead ++ [node] else lead ++ [node, last] := by
  have hdrop : (lead ++ [node, last]).dropLast = lead ++ [node] := by
    rw [List.dropLast_append_of_ne_nil (by simp)]
    rfl
  rw [arrayNodes, endsInMark_append_pair, hdrop]

/-- The first element of an array schema is a node. -/
theorem head_mem_arrayNodes (first : Value) (rest : List Value) :
    first ∈ arrayNodes (first :: rest) := by
  rw [arrayNodes]
  split
  · cases rest with
    | nil => contradiction
    | cons second rest => exact List.mem_cons_self
  · exact List.mem_cons_self

/-- What belongs to the nodes of a sequence is found element by element. -/
theorem sequenceNodes_map {α : Type} (f : Value → α) (items : List Value) :
    sequenceNodes items (items.map f) = (sequenceNodes items items).map f := by
  unfold sequenceNodes
  split
  · rfl
  · rw [List.map_drop]
  · split
    · rw [List.map_dropLast]
    · rfl

/-- What belongs to the nodes of an object is found item by item. -/
theorem objectNodes_map {α : Type} (f : Value → α) (entries : List (Value × Value)) :
    objectNodes entries (entries.map fun e => f e.2) =
      (objectNodes entries (entries.map Prod.snd)).map f := by
  unfold objectNodes
  induction entries with
  | nil => rfl
  | cons e rest ih =>
    simp only [List.map_cons, List.zip_cons_cons, List.filter_cons]
    split <;> simp [ih]

/-- The nodes of a sequence are elements of it. -/
theorem mem_of_mem_sequenceNodes {items : List Value} {node : Value}
    (h : node ∈ sequenceNodes items items) : node ∈ items := by
  unfold sequenceNodes at h
  split at h
  · simp at h
  · exact List.mem_of_mem_drop h
  · split at h
    · exact List.dropLast_subset _ h
    · exact h

/-- The children of a sequence. -/
theorem children_of_items? {schema : Value} {items : List Value} (h : schema.items? = some items) :
    children schema = sequenceNodes items items := by
  rcases Value.items?_eq_some_iff.1 h with rfl | rfl <;> rfl

/-- What is no container has no children. -/
theorem children_of_scalar {schema : Value} (hitems : schema.items? = none)
    (hentries : schema.entries? = none) : children schema = [] := by
  cases schema with
  | list items => simp [Value.items?] at hitems
  | tuple items => simp [Value.items?] at hitems
  | object entries => simp [Value.entries?] at hentries
  | _ => rfl

/-- The nodes of a sequence in the form of an array. -/
theorem sequenceNodes_array {items : List Value} (hform : form items = .array) :
    sequenceNodes items items = arrayNodes items := by
  rw [sequenceNodes, hform]
  rfl

/-- An array schema with elements has children. -/
theorem exists_mem_children_of_mem {schema part : Value} {items : List Value}
    (hitems : schema.items? = some items) (hform : form items = .array) (h : part ∈ items) :
    ∃ child, child ∈ children schema := by
  rw [children_of_items? hitems, sequenceNodes_array hform]
  cases items with
  | nil => cases h
  | cons first rest => exact ⟨first, head_mem_arrayNodes first rest⟩

/-- The nodes of an object are the items of its node entries. -/
theorem objectNodes_eq_map (entries : List (Value × Value)) :
    objectNodes entries (entries.map Prod.snd) =
      (entries.filter fun e => isNodeEntry e.1 e.2).map Prod.snd := by
  unfold objectNodes
  induction entries with
  | nil => rfl
  | cons e rest ih =>
    simp only [List.map_cons, List.zip_cons_cons, List.filter_cons]
    split <;> simp [ih]

/-- The children of an object are the items of its node entries. -/
theorem mem_children_object_iff {entries : List (Value × Value)} {child : Value} :
    child ∈ children (.object entries) ↔
      ∃ key, (key, child) ∈ entries ∧ isNodeEntry key child = true := by
  rw [children, objectNodes_eq_map]
  simp

/-- Induction over the parts of a schema, whether or not they are nodes: a sequence may assume the
statement of its elements, and an object of its items. -/
@[elab_as_elim]
theorem induct_parts {motive : Value → Prop}
    (sequence : ∀ schema items, schema.items? = some items → (∀ node ∈ items, motive node) →
      motive schema)
    (object : ∀ entries, (∀ e ∈ entries, motive e.2) → motive (.object entries))
    (scalar : ∀ schema, schema.items? = none → schema.entries? = none → motive schema)
    (schema : Value) : motive schema := by
  induction schema using Value.induct with
  | list items ih => exact sequence _ items rfl ih
  | tuple items ih => exact sequence _ items rfl ih
  | object entries ih => exact object entries fun e he => (ih e he).2
  | _ => exact scalar _ rfl rfl

/-- Induction over a schema: a node may assume the statement of its children. -/
@[elab_as_elim]
theorem induct_children {motive : Value → Prop}
    (step : ∀ schema, (∀ child ∈ children schema, motive child) → motive schema)
    (schema : Value) : motive schema := by
  -- Children are parts, but not all parts are children.
  induction schema using induct_parts with
  | sequence schema items hitems ih =>
    refine step _ fun child h => ih child ?_
    rw [children_of_items? hitems] at h
    exact mem_of_mem_sequenceNodes h
  | object entries ih =>
    refine step _ fun child h => ?_
    obtain ⟨key, hmem, -⟩ := mem_children_object_iff.1 h
    exact ih _ hmem
  | scalar schema hitems hentries =>
    refine step _ fun child h => ?_
    rw [children_of_scalar hitems hentries] at h
    exact absurd h List.not_mem_nil

/-! ## Height -/

/-- The height is told by the heights of the children. -/
theorem height_eq_heightAbove (schema : Value) :
    height schema = heightAbove ((children schema).map height) := by
  cases schema with
  | list items => rw [height, heights_eq_map, sequenceNodes_map]; rfl
  | tuple items => rw [height, heights_eq_map, sequenceNodes_map]; rfl
  | object entries => rw [height, itemHeights_eq_map, objectNodes_map]; rfl
  | _ => rfl

/-- A bound on the greatest of some heights bounds each of them. -/
theorem foldr_max_le_iff {hs : List Nat} {room : Int} :
    ((hs.foldr max 0 : Nat) : Int) ≤ room ↔ 0 ≤ room ∧ ∀ h ∈ hs, (h : Int) ≤ room := by
  induction hs with
  | nil => simp
  | cons h hs ih =>
    have hmax : ((max h (hs.foldr max 0) : Nat) : Int) ≤ room ↔
        (h : Int) ≤ room ∧ ((hs.foldr max 0 : Nat) : Int) ≤ room := by omega
    rw [List.foldr_cons, hmax, ih, List.forall_mem_cons]
    exact and_left_comm

/-- A bound on the height above some heights bounds each of them by one less. -/
theorem heightAbove_le_iff {hs : List Nat} {room : Int} :
    (heightAbove hs : Int) ≤ room ↔ 0 ≤ room ∧ ∀ h ∈ hs, (h : Int) ≤ room - 1 := by
  cases hs with
  | nil => simp [heightAbove]
  | cons h hs =>
    -- Only where there is something below does one level come on top.
    have habove : ((heightAbove (h :: hs) : Nat) : Int) ≤ room ↔
        (((h :: hs).foldr max 0 : Nat) : Int) ≤ room - 1 := by
      rw [heightAbove]
      omega
    rw [habove, foldr_max_le_iff]
    constructor
    · rintro ⟨hroom, hall⟩
      exact ⟨by omega, hall⟩
    · rintro ⟨-, hall⟩
      have := hall h List.mem_cons_self
      exact ⟨by omega, hall⟩

/-- A bound on the height of a schema bounds the height of each child by one less. -/
theorem height_le_iff (schema : Value) (room : Int) :
    (height schema : Int) ≤ room ↔
      0 ≤ room ∧ ∀ child ∈ children schema, (height child : Int) ≤ room - 1 := by
  rw [height_eq_heightAbove, heightAbove_le_iff]
  simp

/-- No node lies deeper than the height. -/
theorem NodeAt.le_height {depth : Nat} {schema node : Value} (h : NodeAt depth schema node) :
    depth ≤ height schema := by
  induction h with
  | root schema => exact Nat.zero_le _
  | deeper mem _ ih =>
    have := ((height_le_iff _ _).1 (Int.le_refl _)).2 _ mem
    omega

/-! ## Properties of every node -/

section EveryNode

variable {P : Value → Prop} {schema : Value}

/-- What holds of every node holds of the root. -/
theorem EveryNode.root (h : EveryNode P schema) : P schema := h 0 schema (.root schema)

/-- What holds of every node holds of every node below a child. -/
theorem EveryNode.child (h : EveryNode P schema) {child : Value} (mem : child ∈ children schema) :
    EveryNode P child := fun depth node hnode => h (depth + 1) node (.deeper mem hnode)

/-- What holds of the root and of every node below each child holds of every node. -/
theorem everyNode_of_children (hroot : P schema)
    (h : ∀ child ∈ children schema, EveryNode P child) : EveryNode P schema := by
  intro depth node hnode
  cases hnode with
  | root => exact hroot
  | deeper mem hnode => exact h _ mem _ _ hnode

/-- The keys of the object nodes of a schema are plain if those of the root are, and those of the
object nodes below each child. -/
theorem plainKeyed_of_children
    (hkeys : ∀ entries, schema = .object entries → ∀ e ∈ entries, e.1.isPlainKey = true)
    (h : ∀ child ∈ children schema, PlainKeyed child) : PlainKeyed schema := by
  intro depth entries hnode
  cases hnode with
  | root => exact hkeys entries rfl
  | deeper mem hnode => exact h _ mem _ entries hnode

end EveryNode

/-! ## The grammar -/

/-- What makes a node a schema, apart from the nodes below it. -/
inductive SoundNode : Value → Prop where
  /-- A tag. -/
  | tag (t : Tag) : SoundNode (.string t.text)
  /-- Any sequence. -/
  | sequence {node : Value} {items : List Value} (hitems : node.items? = some items) :
    SoundNode node
  /-- An object with sound declarations under texts. -/
  | object {entries : List (Value × Value)} (text : TextKeys entries)
    (sound : SoundEntries entries) : SoundNode (.object entries)

/-- A text is a sound node exactly when it spells a tag. -/
theorem soundNode_string_iff {s : String} : SoundNode (.string s) ↔ (Tag.ofText? s).isSome := by
  rw [Option.isSome_iff_exists]
  constructor
  · rintro (t | h)
    · exact ⟨t, (Tag.ofText?_eq_some_iff _ t).2 rfl⟩
    · simp [Value.items?] at h
  · rintro ⟨t, ht⟩
    rw [(Tag.ofText?_eq_some_iff s t).1 ht]
    exact .tag t

/-- An object is a sound node exactly when its keys are texts and its declarations are sound. -/
theorem soundNode_object_iff {entries : List (Value × Value)} :
    SoundNode (.object entries) ↔ TextKeys entries ∧ SoundEntries entries := by
  constructor
  · rintro (_ | h | ⟨htext, hsound⟩)
    · simp [Value.items?] at h
    · exact ⟨htext, hsound⟩
  · rintro ⟨htext, hsound⟩
    exact .object htext hsound

/-- A sound node that is no container is a tag. -/
theorem SoundNode.scalar {node : Value} (h : SoundNode node) (hitems : node.items? = none)
    (hentries : node.entries? = none) : ∃ t : Tag, node = .string t.text := by
  cases h with
  | tag t => exact ⟨t, rfl⟩
  | sequence h => simp [hitems] at h
  | object => simp [Value.entries?] at hentries

/-- A schema is a sound node above schemas. -/
theorem wellFormed_iff (schema : Value) :
    WellFormed schema ↔ SoundNode schema ∧ ∀ child ∈ children schema, WellFormed child := by
  -- Each rule of the grammar asks for a sound node and for its children.
  constructor
  · intro h
    cases h with
    | tag t => exact ⟨.tag t, fun child h => by simp [children] at h⟩
    | sequence hitems nodes =>
      rw [children_of_items? hitems]
      exact ⟨.sequence hitems, nodes⟩
    | object text sound nodes =>
      refine ⟨.object text sound, fun child h => ?_⟩
      obtain ⟨key, hmem, hnode⟩ := mem_children_object_iff.1 h
      exact nodes _ hmem hnode
  · rintro ⟨hsound, hchildren⟩
    cases hsound with
    | tag t => exact .tag t
    | sequence hitems =>
      rw [children_of_items? hitems] at hchildren
      exact .sequence hitems hchildren
    | object text sound =>
      exact .object text sound fun e he hnode =>
        hchildren _ (mem_children_object_iff.2 ⟨e.1, he, hnode⟩)

/-- Every node of a schema is sound. -/
theorem WellFormed.soundNode {depth : Nat} {schema node : Value} (hschema : WellFormed schema)
    (h : NodeAt depth schema node) : SoundNode node := by
  induction h with
  | root schema => exact ((wellFormed_iff _).1 hschema).1
  | deeper mem _ ih => exact ih (((wellFormed_iff _).1 hschema).2 _ mem)

/-- The keys of the object nodes of a schema are texts. -/
theorem WellFormed.textKeyed {schema : Value} (hschema : WellFormed schema) : TextKeyed schema :=
  fun _ _ hnode => (soundNode_object_iff.1 (hschema.soundNode hnode)).1

/-! ## Blame -/

/-- What the verdict tells is the fault of a node of the schema, given the room that is left for the
schema: the node lies too deep, or it is unsound, or not all of its keys are texts. -/
inductive Blames (schema : Value) (room : Int) : Verdict → Prop where
  /-- No room is left for a node. -/
  | depth {v : Violation} {depth : Nat} {node : Value} (hproblem : v.problem = .tooDeep)
    (hnode : NodeAt depth schema node) (hdeep : room < depth) : Blames schema room (.violates v)
  /-- A node is unsound. -/
  | unsound {v : Violation} {depth : Nat} {node : Value}
    (hcode : v.problem.code = .invalidSchema) (hnode : NodeAt depth schema node)
    (hunsound : ¬SoundNode node) : Blames schema room (.violates v)
  /-- A key of a node is no text. -/
  | keys {f : Fault} {depth : Nat} {entries : List (Value × Value)}
    (hnode : NodeAt depth schema (.object entries)) (hkeys : ¬TextKeys entries) :
    Blames schema room (.faults f)

namespace Blames

variable {schema child : Value} {room : Int} {verdict : Verdict}

/-- A node is to blame wherever the verdict is seen from. -/
theorem under (s : Step) (h : Blames schema room verdict) :
    Blames schema room (verdict.under s) := by
  cases h with
  | depth hproblem hnode hdeep => exact .depth hproblem hnode hdeep
  | unsound hcode hnode hunsound => exact .unsound hcode hnode hunsound
  | keys hnode hkeys => exact .keys hnode hkeys

/-- A node of a child is a node of the whole schema, for which there is one level more of room. -/
theorem parent (hchild : child ∈ children schema) (h : Blames child (room - 1) verdict) :
    Blames schema room verdict := by
  cases h with
  | depth hproblem hnode hdeep => exact .depth hproblem (.deeper hchild hnode) (by omega)
  | unsound hcode hnode hunsound => exact .unsound hcode (.deeper hchild hnode) hunsound
  | keys hnode hkeys => exact .keys (.deeper hchild hnode) hkeys

/-- Where no room is left, the schema is higher than the room. -/
theorem lt_height {v : Violation} (h : Blames schema room (.violates v))
    (hproblem : v.problem = .tooDeep) : room < height schema := by
  cases h with
  | depth _ hnode hdeep =>
    have hheight := hnode.le_height
    omega
  | unsound hcode => simp [hproblem, Problem.code] at hcode

/-- Where all keys are texts, it is the depth of the schema that is to blame, or its form. -/
theorem of_textKeyed (htext : TextKeyed schema) (h : Blames schema room verdict) :
    ∃ v, verdict = .violates v ∧
      ((v.problem.code = .maxDepthExceeded ∧ room < height schema) ∨
        (v.problem.code = .invalidSchema ∧ ¬WellFormed schema)) := by
  cases h with
  | depth hproblem hnode hdeep =>
    exact ⟨_, rfl, .inl ⟨by rw [hproblem]; rfl, (depth hproblem hnode hdeep).lt_height hproblem⟩⟩
  | unsound hcode hnode hunsound =>
    exact ⟨_, rfl, .inr ⟨hcode, fun hschema => hunsound (hschema.soundNode hnode)⟩⟩
  | keys hnode hkeys => exact absurd (htext _ _ hnode) hkeys

end Blames

end Schema

end ShapeSchema
