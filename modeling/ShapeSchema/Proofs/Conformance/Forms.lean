import ShapeSchema.Proofs.Schema.Audit

/-!
# The meaning of a schema, form by form

A run asks whether there is room for the node and then goes by its form. Here each form gets the one
equation that proofs use, so that none of them opens the definitions again: `run_of_items?`,
`run_object` and `run_scalar` for the three kinds of nodes, `Checker.elements_append_pair` for
arrays of two nodes at least, `Checker.entries_cases` for objects.
-/

namespace ShapeSchema

namespace Schema

variable (strict : Bool) (room : Int) (v : Value)

/-- The run of a sequence. -/
theorem run_of_items? {schema : Value} {items : List Value} (h : schema.items? = some items) :
    run strict schema room v =
      if room < 0 then .tooDeep
      else Checker.sequence items (items.map (node strict)) room v := by
  rw [← nodes_eq_map]
  rcases Value.items?_eq_some_iff.1 h with rfl | rfl <;> rfl

/-- The run of an object. -/
theorem run_object (entries : List (Value × Value)) :
    run strict (.object entries) room v =
      if room < 0 then .tooDeep
      else Checker.object strict entries (entries.map fun e => (e.1, node strict e.2)) room v := by
  rw [← fields_eq_map]
  rfl

/-- The run of a node that is no container. -/
theorem run_scalar {schema : Value} (hitems : schema.items? = none)
    (hentries : schema.entries? = none) :
    run strict schema room v = if room < 0 then .tooDeep else Checker.scalar schema room v := by
  cases schema with
  | list items => simp [Value.items?] at hitems
  | tuple items => simp [Value.items?] at hitems
  | object entries => simp [Value.entries?] at hentries
  | string s => rw [run] <;> simp
  | _ => rfl

/-- Where no room is left nothing of the schema is looked at. -/
theorem run_of_neg (strict : Bool) (schema : Value) {room : Int} (h : room < 0) (v : Value) :
    run strict schema room v = .tooDeep := by
  rcases kinds schema with ⟨items, hitems⟩ | ⟨entries, rfl⟩ | ⟨hitems, hentries⟩
  · rw [run_of_items? strict room v hitems, if_pos h]
  · rw [run_object, if_pos h]
  · rw [run_scalar strict room v hitems hentries, if_pos h]

/-- What governs a key is found among the nodes of an object schema as among its items. -/
theorem governing?_fields (entries : List (Value × Value)) (key : Value) :
    governing? (fun n => n.schema.isNull) (entries.map fun e => (e.1, node strict e.2)) key =
      (governing? Value.isNull entries key).map (node strict) :=
  governing?_map (node strict) _ entries key

end Schema

namespace Checker

/-- A value held against a node that is no container: the node is a tag, or it is unsound. -/
theorem scalar_cases {schema : Value} (room : Int) (v : Value) (hitems : schema.items? = none)
    (hentries : schema.entries? = none) :
    (∃ t : Tag, schema = .string t.text ∧ scalar schema room v =
      if tagAccepts t v then .conforming else .problem (.typeMismatch t v.kind.text)) ∨
    (¬Schema.SoundNode schema ∧ Schema.nodeVerdict schema ≠ .conforms ∧
      scalar schema room v = .silent (Schema.nodeVerdict schema)) := by
  by_cases hsound : Schema.SoundNode schema
  · obtain ⟨t, rfl⟩ := hsound.scalar hitems hentries
    refine .inl ⟨t, rfl, ?_⟩
    rw [scalar, (Tag.ofText?_eq_some_iff _ t).2 rfl]
  · refine .inr ⟨hsound, fun h => hsound ((Schema.nodeVerdict_eq_conforms_iff schema).1 h), ?_⟩
    cases schema with
    | list items => simp [Value.items?] at hitems
    | tuple items => simp [Value.items?] at hitems
    | object entries => simp [Value.entries?] at hentries
    | string s =>
      rw [Schema.soundNode_string_iff, Option.not_isSome_iff_eq_none] at hsound
      simp [scalar, Schema.nodeVerdict, Schema.auditScalar, hsound, Run.problem]
    | _ => rfl

/-- A sequence in the form of an enumeration. -/
theorem sequence_enumeration {members : List Value} {nodes : List Node} :
    sequence (.string "enum" :: members) nodes = enumeration members := rfl

/-- A sequence in the form of a union. -/
theorem sequence_union {strict : Bool} {alternatives : List Value} :
    sequence (.string "or" :: alternatives)
      ((.string "or" :: alternatives).map (Schema.node strict)) =
        union (alternatives.map (Schema.node strict)) := rfl

/-- A sequence in the form of an array. -/
theorem sequence_array {items : List Value} {nodes : List Node}
    (hform : Schema.form items = .array) : sequence items nodes = array nodes := by
  rw [sequence, hform]

/-- The first position comes before the others. -/
theorem positions_cons (room : Int) (start : Nat) (node : Node) (nodes : List Node) (item : Value)
    (items : List Value) :
    positions room start (node :: nodes) (item :: items) =
      (node.runUnder room (.index start) item).andThen fun _ =>
        positions room (start + 1) nodes items := by
  rw [positions, List.zip_cons_cons, List.zipIdx_cons, Run.forEach_cons]
  rfl

/-- The first element comes before the others. -/
theorem repeated_cons (room : Int) (start : Nat) (node : Node) (item : Value) (items : List Value) :
    repeated room start node (item :: items) =
      (node.runUnder room (.index start) item).andThen fun _ =>
        repeated room (start + 1) node items := by
  rw [repeated, List.zipIdx_cons, Run.forEach_cons]
  rfl

/-- Elements held against two nodes at least: those in front one by one, and then the last two. -/
theorem elements_append_pair (room : Int) (lead : List Node) (node last : Node)
    (items : List Value) :
    elements room (lead ++ [node, last]) items =
      if items.length < lead.length then .problem .tooFewElements
      else (positions room 0 lead items).andThen fun _ =>
        arrayEnd room lead.length node last (items.drop lead.length) := by
  simp [elements]

/-- An entry of the data is held against what governs its key in the schema. -/
theorem entry_fields (strict refuses : Bool) (schema : List (Value × Value)) (room : Int)
    (e : Value × Value) :
    entry refuses (schema.map fun e => (e.1, Schema.node strict e.2)) room e =
      match Schema.governing? Value.isNull schema e.1 with
      | some child => (Schema.run strict child (room - 1) e.2).under (.key e.1)
      | none =>
        if refuses then .silent (.violates ⟨[.key e.1], .unrecognizedKey⟩) else .conforming := by
  rw [entry, Schema.governing?_fields]
  cases Schema.governing? Value.isNull schema e.1 <;> rfl

/-- Data held against an object schema: the schema itself is asked about first, then the required
keys, and then come the entries of the data. -/
theorem entries_cases (strict : Bool) (schema : List (Value × Value)) (fields : List (Value × Node))
    (room : Int) (data : List (Value × Value)) :
    (¬Schema.SoundNode (.object schema) ∧ Schema.objectVerdict schema ≠ .conforms ∧
      entries strict schema fields room data = .silent (Schema.objectVerdict schema)) ∨
    (Schema.SoundNode (.object schema) ∧
      (∃ name, (∃ e ∈ schema, e.1 = .string name ∧ Schema.isReserved e.1 = false ∧
          Schema.isOptional name = false) ∧ Entries.contains data (.string name) = false ∧
        entries strict schema fields room data =
          .silent (.violates ⟨[.key (.string name)], .missingKey⟩))) ∨
    (Schema.SoundNode (.object schema) ∧
      (∀ e ∈ schema, ∀ s, e.1 = .string s → Schema.isReserved e.1 = false →
        Schema.isOptional s = false → Entries.contains data (.string s) = true) ∧
      entries strict schema fields room data =
        Run.forEach (entry (Schema.strictness schema strict) fields room) data) := by
  by_cases hverdict : Schema.objectVerdict schema = .conforms
  · have hsound := Schema.objectVerdict_eq_conforms_iff.1 hverdict
    obtain ⟨required, hrequired, hmem⟩ :=
      Schema.requiredKeys_of_textKeys (Schema.soundNode_object_iff.1 hsound).1
    cases hmissing : missingKey? required data with
    | some name =>
      refine .inr (.inl ⟨hsound, name, (hmem name).1 (List.mem_of_find?_eq_some hmissing), ?_, ?_⟩)
      · simpa using List.find?_some hmissing
      · simp [entries, hverdict, hrequired, hmissing]
    | none =>
      refine .inr (.inr ⟨hsound, fun e he s hs hreserved hoptional => ?_, ?_⟩)
      · have hs := (hmem s).2 ⟨e, he, hs, hreserved, hoptional⟩
        simpa using List.find?_eq_none.1 hmissing s hs
      · simp [entries, hverdict, hrequired, hmissing]
  · have hunsound : ¬Schema.SoundNode (.object schema) := fun hsound =>
      hverdict (Schema.objectVerdict_eq_conforms_iff.2 hsound)
    refine .inl ⟨hunsound, hverdict, ?_⟩
    rw [entries]
    split
    · contradiction
    · rfl

end Checker

end ShapeSchema
