import ShapeSchema.Proofs.Schema.Correspondence
import ShapeSchema.Schema.Rewriting

/-!
# What a rewriting keeps

A rewriting looks at each node after the nodes below it, so that what it makes of a schema is told
by what it makes of the children and by the change at the root. For a sequence and for an object
there is one lemma each that carries a relation of the children to the elements
(`forall₂_everywhere`) and to the entries (`forall₂_itemEverywhere`).

The two rewritings change containers into containers. What they make of a node looks like the node
(`LookAlike.everywhere`), which keeps its neighbours what they are.

Where the strictness of an object is declared, an entry is added to its schema that declares no
field. What is looked up among the other entries is the same then (`get?_withStrictness_of_ne`), and
so is the verdict on the declarations (`objectVerdict_withStrictness`).
-/

namespace ShapeSchema

/-! ## Entries that are passed over -/

/-- A check that always conforms leaves a verdict what it is. -/
theorem Verdict.andThen_conforms (verdict : Verdict) :
    verdict.andThen (fun _ => .conforms) = verdict := by
  cases verdict <;> rfl

/-- Checks in order are the first ones, and the others if these conform. -/
theorem Verdict.forEach_append {α : Type} (check : α → Verdict) (as bs : List α) :
    forEach check (as ++ bs) = (forEach check as).andThen fun _ => forEach check bs := by
  induction as with
  | nil => rfl
  | cons a rest ih =>
    rw [List.cons_append, forEach, forEach, ih]
    cases check a <;> rfl

/-- Checks that conform may be left out. -/
theorem Verdict.forEach_filter {α : Type} {check : α → Verdict} {p : α → Bool} {as : List α}
    (h : ∀ a ∈ as, p a = false → check a = .conforms) :
    forEach check (as.filter p) = forEach check as := by
  induction as with
  | nil => rfl
  | cons a rest ih =>
    obtain ⟨ha, hrest⟩ := List.forall_mem_cons.1 h
    rw [List.filter_cons]
    cases hp : p a with
    | true => rw [if_pos rfl, forEach, forEach, ih hrest]
    | false =>
      rw [if_neg (by decide), forEach, ha hp, ih hrest]
      rfl

namespace Entries

variable {α : Type}

/-- What is found among entries is found among the first ones, or else among the others. -/
theorem get?_append (entries more : List (Value × α)) (key : Value) :
    get? (entries ++ more) key = (get? entries key).or (get? more key) := by
  rw [get?, get?, get?, List.find?_append]
  cases entries.find? fun e => key.alike e.1 <;> rfl

/-- Entries under keys that are not alike may be left out. -/
theorem get?_filter {p : Value × α → Bool} {entries : List (Value × α)} {key : Value}
    (h : ∀ e ∈ entries, p e = false → key.alike e.1 = false) :
    get? (entries.filter p) key = get? entries key := by
  induction entries with
  | nil => rfl
  | cons e rest ih =>
    obtain ⟨he, hrest⟩ := List.forall_mem_cons.1 h
    rw [List.filter_cons, get?_cons]
    cases hp : p e with
    | true => rw [if_pos rfl, get?_cons, ih hrest]
    | false =>
      rw [if_neg (by decide), he hp, ih hrest]
      rfl

end Entries

namespace Schema

/-! ## Any rewriting -/

variable {change : Value → Value} {schema : Value}

/-- What is no container is kept. -/
theorem everywhere_of_not_isContainer (h : schema.isContainer = false) :
    everywhere change schema = schema := by
  cases schema with
  | list items => exact nomatch h
  | tuple items => exact nomatch h
  | object entries => exact nomatch h
  | _ => rfl

/-- What has neither elements nor entries is kept. -/
theorem everywhere_scalar (hitems : schema.items? = none) (hentries : schema.entries? = none) :
    everywhere change schema = schema :=
  everywhere_of_not_isContainer (Value.isContainer_eq_false_iff.2 ⟨hitems, hentries⟩)

/-- What a rewriting makes of an object. -/
theorem everywhere_object (entries : List (Value × Value)) :
    everywhere change (.object entries) =
      change (.object (entries.map fun e => (e.1, itemEverywhere change e))) := by
  rw [everywhere, itemsEverywhere_eq_map]

/-- What a rewriting makes of the elements of a sequence, if the change at a sequence is a change of
its elements. -/
theorem everywhere_items? {items : List Value} (changeItems : List Value → List Value)
    (hchange : ∀ node items, node.items? = some items →
      (change node).items? = some (changeItems items))
    (h : schema.items? = some items) :
    (everywhere change schema).items? = some (changeItems
      (if form items = .enumeration then items else items.map (everywhere change))) := by
  rcases Value.items?_eq_some_iff.1 h with rfl | rfl
  · rw [everywhere, elementsEverywhere_eq_map]
    exact hchange _ _ rfl
  · rw [everywhere, elementsEverywhere_eq_map]
    exact hchange _ _ rfl

/-- If the change makes containers of containers then what it makes of a node looks like the
node. -/
theorem LookAlike.everywhere
    (hchange : ∀ node, node.isContainer = true → (change node).isContainer = true)
    (schema : Value) : LookAlike schema (everywhere change schema) := by
  cases schema with
  | list items => exact .of_isContainer rfl (hchange _ rfl)
  | tuple items => exact .of_isContainer rfl (hchange _ rfl)
  | object entries => exact .of_isContainer rfl (hchange _ rfl)
  | _ => exact .refl _

/-- The elements of a sequence that is no enumeration correspond to what is made of them if the
children do. The others are kept. -/
theorem forall₂_everywhere {R : Value → Value → Prop} {items : List Value}
    (hrefl : ∀ node, R node node) (hitems : schema.items? = some items)
    (hform : form items ≠ .enumeration)
    (h : ∀ child ∈ children schema, R child (everywhere change child)) :
    List.Forall₂ R items (items.map (everywhere change)) := by
  rw [List.forall₂_map_right_iff, List.forall₂_same]
  refine forall_mem_of_children hitems hform h fun part hpart => ?_
  rw [everywhere_of_not_isContainer hpart]
  exact hrefl part

/-- The entries of an object correspond to what is made of them if the children do. The others are
kept. -/
theorem forall₂_itemEverywhere {R : Value → Value → Prop} {entries : List (Value × Value)}
    (hrefl : ∀ node, R node node)
    (h : ∀ child ∈ children (.object entries), R child (everywhere change child)) :
    List.Forall₂ (fun e e' => e.1 = e'.1 ∧ R e.2 e'.2) entries
      (entries.map fun e => (e.1, itemEverywhere change e)) := by
  rw [List.forall₂_map_right_iff, List.forall₂_same]
  intro e he
  refine ⟨rfl, ?_⟩
  unfold itemEverywhere
  split
  · exact h e.2 (mem_children_object_iff.2 ⟨e.1, he, ‹_›⟩)
  · exact hrefl e.2

/-- The strictness of an object is kept below the root. -/
theorem get?_strictKey_itemEverywhere (entries : List (Value × Value)) :
    Entries.get? (entries.map fun e => (e.1, itemEverywhere change e)) (.string strictKey) =
      Entries.get? entries (.string strictKey) := by
  refine (Entries.get?_congr ?_).symm
  rw [List.forall₂_map_right_iff, List.forall₂_same]
  refine fun e _ => ⟨rfl, fun halike => ?_⟩
  rw [itemEverywhere, (Value.alike_string_iff _ _).1 halike]
  rfl

/-- The nodes of a sequence whose elements were replaced by others that look like them are what was
made of its nodes. -/
theorem sequenceNodes_map_of_lookAlike {f : Value → Value} (hf : ∀ node, LookAlike node (f node))
    (items : List Value) :
    sequenceNodes (items.map f) (items.map f) = (sequenceNodes items items).map f := by
  have hlook : List.Forall₂ LookAlike items (items.map f) := by
    rw [List.forall₂_map_right_iff, List.forall₂_same]
    exact fun node _ => hf node
  rw [← sequenceNodes_map, sequenceNodes, sequenceNodes, ← form_congr hlook,
    ← endsInMark_congr hlook]

/-- The nodes of an object in which the change was made below the root are what was made of its
nodes. -/
theorem exists_of_mem_children_itemEverywhere {entries : List (Value × Value)} {child' : Value}
    (h : child' ∈ children (.object (entries.map fun e => (e.1, itemEverywhere change e)))) :
    ∃ child ∈ children (.object entries), everywhere change child = child' := by
  obtain ⟨key, hmem, hnode'⟩ := mem_children_object_iff.1 h
  obtain ⟨e, he, hentry⟩ := List.mem_map.1 hmem
  obtain ⟨rfl, rfl⟩ := Prod.mk.inj hentry
  cases hnode : isNodeEntry e.1 e.2 with
  | true => exact ⟨e.2, mem_children_object_iff.2 ⟨e.1, he, hnode⟩, by simp [itemEverywhere, hnode]⟩
  | false => simp [itemEverywhere, hnode] at hnode'

/-! ## Declared strictness -/

variable {strict : Bool} {entries : List (Value × Value)}

/-- Under any other key than that of the strictness the same is found. -/
theorem get?_withStrictness_of_ne {key : Value} (hkey : key ≠ .string strictKey) :
    Entries.get? (withStrictness strict entries) key = Entries.get? entries key := by
  have hother : key.alike (.string strictKey) = false := Value.alike_string_right_of_ne hkey
  unfold withStrictness
  split
  · rfl
  · have hlast : Entries.get? [(Value.string strictKey, Value.boolean strict)] key = none := by
      rw [Entries.get?_cons, hother]
      rfl
    rw [Entries.get?_append, hlast, Option.or_none]
    refine Entries.get?_filter fun e _ he => ?_
    rw [Bool.not_eq_false', Value.alike_string_iff] at he
    rw [he, hother]

/-- An object schema that declares no strictness is given one. -/
theorem get?_strictKey_withStrictness (h : declaresStrictness entries = false) :
    Entries.get? (withStrictness strict entries) (.string strictKey) = some (.boolean strict) := by
  have hfiltered : Entries.get? (entries.filter fun e => !(Value.string strictKey).alike e.1)
      (.string strictKey) = none := by
    simp [Entries.get?, List.find?_filter]
  rw [withStrictness, if_neg (by simp [h]), Entries.get?_append, hfiltered]
  rfl

/-- An object schema that is given its strictness declares it. -/
theorem declaresStrictness_withStrictness :
    declaresStrictness (withStrictness strict entries) = true := by
  cases h : declaresStrictness entries with
  | true => rwa [withStrictness, if_pos h]
  | false =>
    rw [declaresStrictness, get?_strictKey_withStrictness h]
    rfl

/-- An object schema that is given its strictness refuses the same keys. -/
theorem strictness_withStrictness :
    strictness entries strict = strictness (withStrictness strict entries) strict := by
  cases h : declaresStrictness entries with
  | true => rw [withStrictness, if_pos h]
  | false =>
    rw [strictness, strictness, get?_strictKey_withStrictness h]
    rw [declaresStrictness] at h
    cases hget : Entries.get? entries (.string strictKey) with
    | none => rfl
    | some v => cases v <;> simp_all [Value.isNull]

/-- Reserved keys are required of no data. -/
theorem requiredKeys_filter {p : Value × Value → Bool}
    (h : ∀ e ∈ entries, p e = false → isReserved e.1 = true) :
    requiredKeys (entries.filter p) = requiredKeys entries := by
  induction entries with
  | nil => rfl
  | cons e rest ih =>
    obtain ⟨he, hrest⟩ := List.forall_mem_cons.1 h
    rw [List.filter_cons]
    cases hp : p e with
    | true => rw [if_pos rfl, requiredKeys, requiredKeys, ih hrest]
    | false => rw [if_neg (by decide), requiredKeys, if_pos (he hp), ih hrest]

/-- A reserved key behind all others is required of no data. -/
theorem requiredKeys_append_singleton {key item : Value} (h : isReserved key = true) :
    requiredKeys (entries ++ [(key, item)]) = requiredKeys entries := by
  induction entries with
  | nil => simp [requiredKeys, h]
  | cons e rest ih => rw [List.cons_append, requiredKeys, requiredKeys, ih]

/-- An object schema that is given its strictness requires the same keys. -/
theorem requiredKeys_withStrictness :
    requiredKeys entries = requiredKeys (withStrictness strict entries) := by
  unfold withStrictness
  split
  · rfl
  · rw [requiredKeys_append_singleton (by decide), requiredKeys_filter]
    intro e _ he
    rw [Bool.not_eq_false', Value.alike_string_iff] at he
    rw [he]
    decide

/-- In an object schema that is given its strictness the same governs a key. -/
theorem governing?_withStrictness (isAbsent : Value → Bool) (key : Value) :
    governing? isAbsent entries key = governing? isAbsent (withStrictness strict entries) key := by
  have hany : Value.string anyKey ≠ .string strictKey := by simp [anyKey, strictKey]
  have hoptional (name : String) : Value.string (optionalKey name) ≠ .string strictKey := by
    simpa using optionalKey_ne (by decide) name
  have hfield : field? entries key = field? (withStrictness strict entries) key := by
    unfold field?
    split
    · rfl
    · rename_i hreserved
      -- No field is looked for under the reserved key.
      have hkey : key ≠ .string strictKey := by
        rintro rfl
        exact hreserved (by decide)
      rw [get?_withStrictness_of_ne hkey]
      cases Entries.get? entries key with
      | some item => rfl
      | none =>
        cases key with
        | string s => exact (get?_withStrictness_of_ne (hoptional s)).symm
        | _ => rfl
  rw [governing?, governing?, hfield, get?_withStrictness_of_ne hany]

/-- The verdict on an entry depends only on whether the name is declared that it makes optional. -/
theorem declarationVerdict_congr {declared declared' : String → Bool} {e : Value × Value}
    (h : ∀ name, e.1 = .string (optionalKey name) → declared name = declared' name) :
    declarationVerdict declared e = declarationVerdict declared' e := by
  unfold declarationVerdict
  cases hkey : e.1 with
  | string s =>
    cases hbase : optionalBase? s with
    | none => simp [keyText, hbase]
    | some base =>
      obtain rfl := optionalBase?_eq_some_iff.1 hbase
      simp [keyText, hbase, h base hkey]
  | _ => rfl

/-- The verdict on the keys is the same where the strictness is given, if there is no optional field
of the reserved name. -/
theorem keyVerdict_withStrictness
    (h : Entries.contains entries (.string (optionalKey strictKey)) = false) :
    keyVerdict entries = keyVerdict (withStrictness strict entries) := by
  have hcontains (name : String) (hname : name ≠ strictKey) :
      Entries.contains (withStrictness strict entries) (.string name) =
        Entries.contains entries (.string name) := by
    rw [Entries.contains_eq_isSome_get?, Entries.contains_eq_isSome_get?,
      get?_withStrictness_of_ne (by simpa using hname)]
  -- No entry asks whether the strictness is declared.
  have hsame : ∀ e ∈ entries,
      declarationVerdict (fun name => Entries.contains entries (.string name)) e =
        declarationVerdict
          (fun name => Entries.contains (withStrictness strict entries) (.string name)) e := by
    refine fun e he => declarationVerdict_congr fun name hname => (hcontains name ?_).symm
    rintro rfl
    rw [Bool.eq_false_iff, ne_eq, Entries.contains_string_iff] at h
    exact h ⟨e, he, hname⟩
  -- The entry of the strictness itself is never a mistake.
  have hstrict (declared : String → Bool) (e : Value × Value) (he : e.1 = .string strictKey) :
      declarationVerdict declared e = .conforms := by
    rw [declarationVerdict, he]
    rfl
  rw [keyVerdict_eq_forEach, keyVerdict_eq_forEach,
    Verdict.forEach_congr (List.forall₂_same.2 hsame)]
  generalize (fun name => Entries.contains (withStrictness strict entries) (.string name)) =
    declared
  unfold withStrictness
  split
  · rfl
  · have hlast : Verdict.forEach (declarationVerdict declared)
        [(.string strictKey, .boolean strict)] = .conforms := by
      rw [Verdict.forEach, hstrict _ _ rfl]
      rfl
    rw [Verdict.forEach_append, hlast, Verdict.andThen_conforms, Verdict.forEach_filter]
    intro e _ he
    rw [Bool.not_eq_false', Value.alike_string_iff] at he
    exact hstrict _ _ he

/-- The verdict on the declarations is the same where the strictness is given, if there is no
optional field of the reserved name. -/
theorem objectVerdict_withStrictness
    (h : Entries.contains entries (.string (optionalKey strictKey)) = false) :
    objectVerdict entries = objectVerdict (withStrictness strict entries) := by
  have hverdict :
      strictnessVerdict entries = strictnessVerdict (withStrictness strict entries) := by
    cases hdeclares : declaresStrictness entries with
    | true => rw [withStrictness, if_pos hdeclares]
    | false =>
      rw [strictnessVerdict, strictnessVerdict, get?_strictKey_withStrictness hdeclares]
      rw [declaresStrictness] at hdeclares
      cases hget : Entries.get? entries (.string strictKey) with
      | none => rfl
      | some v => cases v <;> simp_all [Value.isNull]
  rw [objectVerdict, objectVerdict, ← keyVerdict_withStrictness h, hverdict]

/-- The elements of a sequence with strictness declared in them. -/
theorem annotate_items? (strict : Bool) {items : List Value} (h : schema.items? = some items) :
    (annotate strict schema).items? =
      some (if form items = .enumeration then items else items.map (annotate strict)) := by
  refine everywhere_items? id (fun node items hitems => ?_) h
  rcases Value.items?_eq_some_iff.1 hitems with rfl | rfl <;> rfl

/-- An object with strictness declared in it. -/
theorem annotate_object (entries : List (Value × Value)) :
    annotate strict (.object entries) = .object (withStrictness strict
      (entries.map fun e => (e.1, itemEverywhere (declareStrictness strict) e))) :=
  everywhere_object entries

/-- With strictness declared in it a node looks the same. -/
theorem lookAlike_annotate (schema : Value) : LookAlike schema (annotate strict schema) := by
  refine .everywhere (fun node hnode => ?_) schema
  cases node <;> first | rfl | exact hnode

/-- The children with strictness declared everywhere were children before. -/
theorem exists_of_mem_children_annotate {child' : Value}
    (h : child' ∈ children (annotate strict schema)) :
    ∃ child ∈ children schema, annotate strict child = child' := by
  rcases kinds schema with ⟨items, hitems⟩ | ⟨entries, rfl⟩ | ⟨hitems, hentries⟩
  · have hitems' := annotate_items? strict hitems
    by_cases hform : form items = .enumeration
    · rw [if_pos hform] at hitems'
      rw [children_of_items? hitems', sequenceNodes, hform] at h
      exact absurd h List.not_mem_nil
    · rw [if_neg hform] at hitems'
      rw [children_of_items? hitems', sequenceNodes_map_of_lookAlike lookAlike_annotate] at h
      rw [children_of_items? hitems]
      exact List.mem_map.1 h
  · rw [annotate_object] at h
    refine exists_of_mem_children_itemEverywhere ?_
    obtain ⟨key, hmem, hnode⟩ := mem_children_object_iff.1 h
    refine mem_children_object_iff.2 ⟨key, ?_, hnode⟩
    unfold withStrictness at hmem
    split at hmem
    · exact hmem
    · rcases List.mem_append.1 hmem with hmem | hmem
      · exact (List.mem_filter.1 hmem).1
      · -- The entry that was added holds no node.
        obtain ⟨rfl, rfl⟩ := Prod.mk.inj (List.mem_singleton.1 hmem)
        simp [isNodeEntry] at hnode
  · rw [annotate, everywhere_scalar hitems hentries, children_of_scalar hitems hentries] at h
    exact absurd h List.not_mem_nil

/-- With strictness declared everywhere all objects declare their own. -/
theorem everyNode_declaresStrictness_annotate (strict : Bool) (schema : Value) :
    EveryNode DeclaresStrictness (annotate strict schema) := by
  induction schema using induct_children with
  | step schema ih =>
    refine everyNode_of_children (fun entries hentries => ?_) fun child' hmem => ?_
    · rcases kinds schema with ⟨items, hitems⟩ | ⟨entries', rfl⟩ | ⟨hitems, hnone⟩
      · have hitems' := annotate_items? strict hitems
        rw [hentries] at hitems'
        exact absurd hitems' nofun
      · obtain rfl := Value.object.inj ((annotate_object entries').symm.trans hentries)
        exact declaresStrictness_withStrictness
      · rw [annotate, everywhere_scalar hitems hnone] at hentries
        rw [hentries] at hnone
        exact absurd hnone nofun
    · obtain ⟨child, hchild, rfl⟩ := exists_of_mem_children_annotate hmem
      exact ih child hchild

end Schema

end ShapeSchema
