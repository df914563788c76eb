import ShapeSchema.Proofs.Conformance.Monotonicity
import ShapeSchema.Proofs.Value.Restatement

/-!
# Orders and spellings that say nothing

The engine goes through everything in order and stops at the first thing that is wrong, but what
conforms does not depend on any order. A value conforms together with its restatements
(`Accepts.restated`), and to a schema together with all that it can be reordered to
(`Reordered.narrower`). An audit accepts what a schema can be reordered to together with the schema
(`Reordered.audit_conforms`), so that this is a law of checks too (`check_reordered_iff`).
-/

namespace ShapeSchema

namespace Entries

/-- Where all keys are texts and none is there twice, what is found under a key is what stands
there. -/
theorem get?_eq_some_iff {entries : List (Value × Value)} (htext : Schema.TextKeys entries)
    (hdistinct : (entries.map Prod.fst).Nodup) {key item : Value} :
    get? entries key = some item ↔ (key, item) ∈ entries := by
  induction entries with
  | nil => simp [get?]
  | cons e rest ih =>
    obtain ⟨k, v⟩ := e
    obtain ⟨s, rfl⟩ : ∃ s, k = .string s := htext (k, v) List.mem_cons_self
    rw [List.map_cons, List.nodup_cons] at hdistinct
    have hrest := ih (fun e he => htext e (List.mem_cons_of_mem _ he)) hdistinct.2
    rw [get?_cons, List.mem_cons, ← hrest]
    split
    · rename_i halike
      obtain rfl := (Value.alike_string_right_iff _ _).1 halike
      -- What stands in front of the other entries is under none of their keys.
      have hfirst : get? rest (.string s) ≠ some item := fun hget =>
        hdistinct.1 (List.mem_map.2 ⟨(.string s, item), hrest.1 hget, rfl⟩)
      simp [hfirst, eq_comm]
    · rename_i halike
      rw [Value.alike_string_right_iff] at halike
      simp [halike]

/-- What is found under a key does not depend on the order of the entries. -/
theorem get?_perm {entries entries' : List (Value × Value)} (htext : Schema.TextKeys entries)
    (hdistinct : (entries.map Prod.fst).Nodup) (perm : entries.Perm entries') (key : Value) :
    get? entries key = get? entries' key := by
  have htext' : Schema.TextKeys entries' := fun e he => htext e (perm.mem_iff.2 he)
  have hdistinct' := (perm.map Prod.fst).nodup_iff.1 hdistinct
  ext item
  rw [get?_eq_some_iff htext hdistinct, get?_eq_some_iff htext' hdistinct', perm.mem_iff]

end Entries

namespace Schema

variable {strict : Bool}

/-! ## Restated values -/

/-- What restates a value that conforms conforms too. -/
theorem Accepts.restated {schema v v' : Value} (h : Accepts strict schema v)
    (hv : v.Restated v') : Accepts strict schema v' := by
  induction schema using induct_parts generalizing v v' with
  | sequence schema items hitems ih =>
    rcases h.sequence hitems with
      ⟨members, rfl, member, hmem, hsame⟩ | ⟨alternatives, rfl, alternative, hmem, haccepts⟩ |
        ⟨hform, data, pairs, hdata, hpairs, haccepts⟩
    · exact .enumeration hitems hmem (hv.same_eq member ▸ hsame)
    · exact .union hitems hmem (ih alternative (List.mem_cons_of_mem _ hmem) haccepts hv)
    · obtain ⟨data', hdata', hrestated⟩ := exists_of_some_rel hv.items?_rel hdata
      obtain ⟨pairs', hpairs', hrel⟩ := hpairs.rel (R := Eq) (fun _ _ heq => heq ▸ rfl)
        (.same .missing) (List.forall₂_same.2 fun _ _ => rfl) hrestated
      refine accepts_of_pairs hitems hform hdata' hpairs' fun p' hp' => ?_
      obtain ⟨p, hp, hnode, hitem⟩ := exists_mem_of_forall₂ hrel.flip hp'
      exact hnode ▸ ih p.1 (hpairs.mem hp) (haccepts p hp) hitem
  | object entries ih =>
    cases h with
    | @object _ data sound required covered accepts =>
      obtain ⟨data', rfl, hitems, hcontains⟩ := hv.exists_entries
      refine .object sound (fun e he hreserved hoptional => ?_) (fun e' he' huncovered => ?_)
        fun e' he' node hgoverns => ?_
      · rw [hcontains]
        exact required e he hreserved hoptional
      · obtain ⟨e, he, hkey, -⟩ := hitems e' he'
        exact covered e he (hkey ▸ huncovered)
      · obtain ⟨e, he, hkey, hitem⟩ := hitems e' he'
        obtain ⟨k, hmem⟩ := hgoverns.exists_mem
        exact ih (k, node) hmem (accepts e he node (hkey ▸ hgoverns)) hitem
    | _ => simp_all [Value.items?]
  | scalar schema hitems hentries =>
    obtain ⟨t, rfl, hholds⟩ := h.scalar hitems hentries
    exact .tag (Tag.holds_iff.2 (hv.tagAccepts_eq t ▸ Tag.holds_iff.1 hholds))

/-! ## Reordered schemas -/

namespace Reordered

variable {schema schema' : Value}

/-- What is no container has nothing in it to reorder. -/
theorem eq_of_scalar (h : Reordered schema schema') (hschema : schema.isContainer = false) :
    schema' = schema := by
  cases h with
  | same => rfl
  | object => simp [Value.isContainer, Value.isMapping, Value.entries?] at hschema
  | _ => simp_all [Value.isContainer, Value.isSequence]

/-- What a schema can be reordered to looks like the schema. -/
theorem lookAlike (h : Reordered schema schema') : LookAlike schema schema' := by
  cases h with
  | same => exact .refl _
  | object => exact .of_isContainer rfl rfl
  | _ =>
    exact .of_isContainer (by simp_all [Value.isContainer, Value.isSequence])
      (by simp_all [Value.isContainer, Value.isSequence])

/-- What was reordered can be put back into its order. -/
theorem symm (h : Reordered schema schema') : Reordered schema' schema := by
  induction h with
  | same => exact .same _
  | enumeration hitems hitems' perm => exact .enumeration hitems' hitems perm.symm
  | union hitems hitems' hlength _ perm ih =>
    obtain ⟨middle, hlength, hparts, hperm⟩ := exists_perm_zip hlength ih perm
    exact .union hitems' hitems hlength hparts hperm
  | array hitems hitems' hform hlength parts ih =>
    have hlook := List.forall₂_iff_zip.2 ⟨hlength, fun hp => (parts _ hp).lookAlike⟩
    exact .array hitems' hitems ((form_congr hlook).symm.trans hform) hlength.symm
      (forall_mem_zip_comm ih)
  | object distinct hkeys _ perm ih =>
    have hdistinct := (perm.map Prod.fst).nodup_iff.1 (hkeys ▸ distinct)
    obtain ⟨middle, hkeys, hparts, hperm⟩ := Entries.exists_perm_zip hkeys ih perm
    exact .object hdistinct hkeys hparts hperm

end Reordered

section Object

variable {entries middle entries' : List (Value × Value)} (hsound : SoundNode (.object entries))
  (distinct : (entries.map Prod.fst).Nodup)

include hsound distinct

/-- What stands in an object schema without being a node is no container. -/
theorem isContainer_of_not_isNodeEntry {key item : Value} (hmem : (key, item) ∈ entries)
    (h : isNodeEntry key item = false) : item.isContainer = false := by
  obtain ⟨htext, hsound⟩ := soundNode_object_iff.1 hsound
  obtain ⟨s, rfl⟩ : ∃ s, key = .string s := htext (key, item) hmem
  by_cases hstrict : s = strictKey
  · subst hstrict
    have hget := (Entries.get?_eq_some_iff htext distinct).2 hmem
    rcases hsound.strictness item hget with rfl | ⟨b, rfl⟩ <;> rfl
  · obtain ⟨-, hnull⟩ : s = anyKey ∧ item.isNull = true := by
      simpa [isNodeEntry, hstrict] using h
    by_contra hcontainer
    rw [Bool.not_eq_false] at hcontainer
    rw [(look_of_isContainer hcontainer).2.1] at hnull
    exact absurd hnull (by decide)

variable (hkeys : entries.map Prod.fst = middle.map Prod.fst) (perm : middle.Perm entries')

include hkeys perm

/-- What is put under the same keys in another order is found under the same keys. -/
theorem get?_rel_of_perm {R : Value → Value → Prop}
    (parts : ∀ p ∈ entries.zip middle, R p.1.2 p.2.2) (key : Value) :
    Option.Rel R (Entries.get? entries key) (Entries.get? entries' key) := by
  obtain ⟨htext, -⟩ := soundNode_object_iff.1 hsound
  have hentries := (Entries.forall₂_iff_zip (R := fun e e' => R e.2 e'.2)).2 ⟨hkeys, parts⟩
  have htext' : TextKeys middle := by
    intro e' he'
    obtain ⟨e, he, hkey, -⟩ := exists_mem_of_forall₂ hentries.flip he'
    exact hkey ▸ htext e he
  rw [← Entries.get?_perm htext' (hkeys ▸ distinct) perm]
  exact Entries.get?_rel (hentries.imp fun _ _ h => ⟨h.1, fun _ => h.2⟩)

variable (parts : ∀ p ∈ entries.zip middle, Reordered p.1.2 p.2.2)

include parts

/-- Reordered object schemas declare the same strictness. -/
theorem get?_strictKey_of_reordered :
    Entries.get? entries (.string strictKey) = Entries.get? entries' (.string strictKey) := by
  obtain ⟨htext, -⟩ := soundNode_object_iff.1 hsound
  have hrel := get?_rel_of_perm hsound distinct hkeys perm parts (.string strictKey)
  cases hget : Entries.get? entries (.string strictKey) with
  | none =>
    rw [hget] at hrel
    generalize Entries.get? entries' (.string strictKey) = found at hrel
    cases hrel with
    | none => rfl
  | some item =>
    obtain ⟨item', hget', hreordered⟩ := exists_of_some_rel hrel hget
    have hmem := (Entries.get?_eq_some_iff htext distinct).1 hget
    rw [hget', hreordered.eq_of_scalar (isContainer_of_not_isNodeEntry hsound distinct hmem rfl)]

/-- Reordered object schemas are sound together. -/
theorem soundNode_of_reordered : SoundNode (.object entries') := by
  obtain ⟨htext, hentries⟩ := soundNode_object_iff.1 hsound
  refine .object (fun e' he' => ?_) (hentries.congr
    (get?_rel_of_perm hsound distinct hkeys perm parts)
    (get?_strictKey_of_reordered hsound distinct hkeys perm parts))
  have hmem : e'.1 ∈ entries.map Prod.fst := by
    rw [hkeys]
    exact List.mem_map_of_mem (perm.mem_iff.2 he')
  obtain ⟨e, he, hkey⟩ := List.mem_map.1 hmem
  exact hkey ▸ htext e he

end Object

namespace Reordered

variable {schema schema' : Value}

/-- What a sound node can be reordered to is a sound node. -/
theorem soundNode (h : Reordered schema schema') (hschema : SoundNode schema) :
    SoundNode schema' := by
  cases h with
  | same => exact hschema
  | enumeration _ hitems' => exact .sequence hitems'
  | union _ hitems' => exact .sequence hitems'
  | array _ hitems' => exact .sequence hitems'
  | object distinct hkeys parts perm =>
    exact soundNode_of_reordered hschema distinct hkeys perm parts

/-- Each child of what a schema can be reordered to is what a child of the schema can be reordered
to. -/
theorem exists_child (h : Reordered schema schema') {child' : Value}
    (hchild' : child' ∈ children schema') : ∃ child ∈ children schema, Reordered child child' := by
  cases h with
  | same => exact ⟨child', hchild', .same child'⟩
  | enumeration _ hitems' =>
    rw [children_of_items? hitems'] at hchild'
    exact absurd hchild' List.not_mem_nil
  | union hitems hitems' hlength parts perm =>
    rw [children_of_items? hitems'] at hchild'
    rw [children_of_items? hitems]
    have hparts := List.forall₂_iff_zip.2 ⟨hlength, fun hp => parts _ hp⟩
    exact exists_mem_of_forall₂ hparts.flip (perm.mem_iff.2 hchild')
  | array hitems hitems' _ hlength parts =>
    rw [← childSteps_map_snd, childSteps_of_items? hitems'] at hchild'
    rw [← childSteps_map_snd, childSteps_of_items? hitems]
    have hparts := List.forall₂_iff_zip.2 ⟨hlength, fun hp => parts _ hp⟩
    have hsteps := sequenceSteps_rel (hparts.imp fun _ _ hpart => hpart.lookAlike) hparts
    obtain ⟨p', hp', rfl⟩ := List.mem_map.1 hchild'
    obtain ⟨p, hp, -, hreordered⟩ := exists_mem_of_forall₂ hsteps.flip hp'
    exact ⟨p.2, List.mem_map_of_mem hp, hreordered⟩
  | object _ hkeys parts perm =>
    obtain ⟨key, hmem', hnode'⟩ := mem_children_object_iff.1 hchild'
    have hentries := (Entries.forall₂_iff_zip (R := fun e e' => Reordered e.2 e'.2)).2
      ⟨hkeys, parts⟩
    obtain ⟨e, he, hkey, hreordered⟩ :=
      exists_mem_of_forall₂ hentries.flip (perm.mem_iff.2 hmem')
    refine ⟨e.2, mem_children_object_iff.2 ⟨e.1, he, ?_⟩, hreordered⟩
    rw [isNodeEntry_congr _ hreordered.lookAlike.absent, hkey]
    exact hnode'

/-- An audit that accepts a schema accepts what the schema can be reordered to. -/
theorem audit_conforms (h : Reordered schema schema') {room : Int}
    (hschema : audit schema room = .conforms) : audit schema' room = .conforms := by
  induction schema using induct_children generalizing schema' room with
  | step schema ih =>
    rw [audit_eq_conforms_iff_children] at hschema ⊢
    obtain ⟨hroom, hsound, hchildren⟩ := hschema
    refine ⟨hroom, h.soundNode hsound, fun child' hchild' => ?_⟩
    obtain ⟨child, hchild, hreordered⟩ := h.exists_child hchild'
    exact ih child hchild hreordered (hchildren child hchild)

/-- A schema takes in no more than what it can be reordered to. -/
theorem narrower (h : Reordered schema schema') (hschema : WellFormed schema) :
    Narrower strict schema schema' := by
  -- What is no container is kept, and the containers in a schema are schemas themselves.
  have hpart {part part' : Value} (hreordered : Reordered part part')
      (ih : WellFormed part → Narrower strict part part')
      (hformed : part.isContainer = true → WellFormed part) :
      LookAlike part part' ∧ Narrower strict part part' := by
    refine ⟨hreordered.lookAlike, ?_⟩
    cases hcontainer : part.isContainer with
    | true => exact ih (hformed hcontainer)
    | false =>
      rw [hreordered.eq_of_scalar hcontainer]
      exact .refl strict part
  induction h with
  | same => exact .refl strict _
  | enumeration hitems hitems' perm => exact .enumeration hitems hitems' perm.subset
  | union hitems hitems' hlength parts perm ih =>
    rw [wellFormed_iff, children_of_items? hitems] at hschema
    have hparts := List.forall₂_iff_zip.2 ⟨hlength, fun hp => ih _ hp⟩
    refine .union hitems hitems' fun a ha => ?_
    obtain ⟨a', ha', hnarrower⟩ := exists_mem_of_forall₂ hparts ha
    exact ⟨a', perm.mem_iff.1 ha', hnarrower (hschema.2 a ha)⟩
  | array hitems hitems' hform hlength parts ih =>
    rw [wellFormed_iff, children_of_items? hitems] at hschema
    refine .array hitems hitems' hform (List.forall₂_iff_zip.2 ⟨hlength, fun hp => ?_⟩)
    refine hpart (parts _ hp) (ih _ hp) fun hcontainer => hschema.2 _ ?_
    exact mem_sequenceNodes_of_isContainer (by simp [hform]) (List.of_mem_zip hp).1 hcontainer
  | @object entries middle _ distinct hkeys parts perm ih =>
    rw [wellFormed_iff] at hschema
    have hitems : ∀ p ∈ entries.zip middle,
        LookAlike p.1.2 p.2.2 ∧ Narrower strict p.1.2 p.2.2 := by
      intro p hp
      refine hpart (parts p hp) (ih p hp) fun hcontainer => hschema.2 _ ?_
      have hmem := (List.of_mem_zip hp).1
      refine mem_children_object_iff.2 ⟨p.1.1, hmem, ?_⟩
      by_contra hnode
      rw [Bool.not_eq_true] at hnode
      rw [isContainer_of_not_isNodeEntry hschema.1 distinct hmem hnode] at hcontainer
      exact absurd hcontainer (by decide)
    refine .object (fun e' he' => ?_)
      (get?_strictKey_of_reordered hschema.1 distinct hkeys perm parts)
      (get?_rel_of_perm hschema.1 distinct hkeys perm hitems)
    have hmem := List.mem_map_of_mem (f := Prod.fst) (perm.mem_iff.2 he')
    rw [← hkeys] at hmem
    exact List.mem_map.1 hmem

end Reordered

/-- **Orders and spellings say nothing.** If an audit accepts a schema, then a check has nothing to
say of a value exactly if it has nothing to say of a restatement of the value against what the
schema can be reordered to. The value may well hold what is not a number, which is kept. -/
theorem check_reordered_iff {schema schema' : Value} {auditStart : String} {limit : Int}
    (haudit : checkSchema schema auditStart limit = .nothing) (hschema : Reordered schema schema')
    {v v' : Value} (hv : v.Restated v') (strict : Bool) (start : String) :
    check strict schema start limit v = .nothing ↔
      check strict schema' start limit v' = .nothing := by
  have haudit' : checkSchema schema' auditStart limit = .nothing := by
    rw [checkSchema, Verdict.answer_eq_nothing_iff] at haudit ⊢
    exact hschema.audit_conforms haudit
  rw [check_eq_nothing_iff_accepts haudit, check_eq_nothing_iff_accepts haudit']
  constructor
  · exact fun h => (hschema.narrower (wellFormed_of_checkSchema haudit).1 v h).restated hv
  · exact fun h =>
      (hschema.symm.narrower (wellFormed_of_checkSchema haudit').1 v' h).restated hv.symm

/-- A required field before an optional one or behind it, an enumeration either way round, and data
in either order with the number one as an integer or as a double. -/
theorem check_reordered_object :
    checkSchema (.object [(.string "a", .list [.string "enum", .integer 1, .integer 2]),
        (.string "b?", .string "any")]) "$" 1 = .nothing ∧
      Reordered
        (.object [(.string "a", .list [.string "enum", .integer 1, .integer 2]),
          (.string "b?", .string "any")])
        (.object [(.string "b?", .string "any"),
          (.string "a", .list [.string "enum", .integer 2, .integer 1])]) ∧
      Value.Restated (.object [(.string "a", .integer 1), (.string "b", .null)])
        (.object [(.string "b", .null),
          (.string "a", .double (.finite false 0x10000000000000 (-52) (by decide)))]) ∧
      (check true
          (.object [(.string "a", .list [.string "enum", .integer 1, .integer 2]),
            (.string "b?", .string "any")]) "$" 1
          (.object [(.string "a", .integer 1), (.string "b", .null)]) = .nothing ↔
        check true
          (.object [(.string "b?", .string "any"),
            (.string "a", .list [.string "enum", .integer 2, .integer 1])]) "$" 1
          (.object [(.string "b", .null),
            (.string "a", .double (.finite false 0x10000000000000 (-52) (by decide)))]) =
          .nothing) := by
  have haudit : checkSchema (.object
      [(.string "a", .list [.string "enum", .integer 1, .integer 2]),
        (.string "b?", .string "any")]) "$" 1 = .nothing := rfl
  have henumeration : Reordered (.list [.string "enum", .integer 1, .integer 2])
      (.list [.string "enum", .integer 2, .integer 1]) := .enumeration rfl rfl (.swap _ _ _)
  have hschema : Reordered
      (.object [(.string "a", .list [.string "enum", .integer 1, .integer 2]),
        (.string "b?", .string "any")])
      (.object [(.string "b?", .string "any"),
        (.string "a", .list [.string "enum", .integer 2, .integer 1])]) :=
    @Reordered.object _ [(.string "a", .list [.string "enum", .integer 2, .integer 1]),
      (.string "b?", .string "any")] _ (by simp) rfl (by simp [henumeration, Reordered.same])
      (.swap _ _ _)
  have hone : Value.Restated (.integer 1)
      (.double (.finite false 0x10000000000000 (-52) (by decide))) :=
    .number rfl rfl rfl (by decide)
  have hv : Value.Restated (.object [(.string "a", .integer 1), (.string "b", .null)])
      (.object [(.string "b", .null),
        (.string "a", .double (.finite false 0x10000000000000 (-52) (by decide)))]) :=
    @Value.Restated.object _
      [(.string "a", .double (.finite false 0x10000000000000 (-52) (by decide))),
        (.string "b", .null)] _ rfl (by simp [hone, Value.Restated.same]) (.swap _ _ _)
  exact ⟨haudit, hschema, hv, check_reordered_iff haudit hschema hv true "$"⟩

end Schema

end ShapeSchema
