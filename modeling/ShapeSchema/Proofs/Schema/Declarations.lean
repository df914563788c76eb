import ShapeSchema.Proofs.Schema.Nodes

/-!
# The declarations of an object schema

The three readers of an object schema are held against what the grammar says of its entries.
`objectVerdict` conforms exactly when the node is sound (`objectVerdict_eq_conforms_iff`), and what
it tells otherwise is the fault of the node (`objectVerdict_blames`). `requiredKeys` lists the keys
that declare required fields (`requiredKeys_of_textKeys`), and what `governing?` finds for a key of
the data is one of the children of the schema (`governing?_mem_children`).
-/

namespace ShapeSchema

/-- Nothing but the text itself is alike to a text. -/
theorem Value.alike_string_right_iff (v : Value) (s : String) :
    v.alike (.string s) = true ↔ v = .string s := by
  cases v with
  | double x => cases hx : x.quantity? <;> simp [Value.alike, Value.quantity?, hx]
  | string t => simp [Value.alike]
  | _ => simp [Value.alike, Value.isNull, Value.quantity?]

/-- What is not the text itself is not alike to it. -/
theorem Value.alike_string_right_of_ne {v : Value} {s : String} (h : v ≠ .string s) :
    v.alike (.string s) = false := by
  rwa [Bool.eq_false_iff, ne_eq, alike_string_right_iff]

/-- The first verdict that does not conform is the verdict of one of the checks. -/
theorem Verdict.forEach_mem {α : Type} {check : α → Verdict} {as : List α}
    (h : forEach check as ≠ .conforms) : ∃ a ∈ as, check a = forEach check as := by
  induction as with
  | nil => exact absurd rfl h
  | cons a rest ih =>
    rw [forEach] at h ⊢
    cases hcheck : check a with
    | conforms =>
      rw [hcheck] at h
      obtain ⟨b, hb, hverdict⟩ := ih h
      exact ⟨b, List.mem_cons_of_mem a hb, hverdict⟩
    | _ => exact ⟨a, List.mem_cons_self, hcheck⟩

namespace Entries

variable {α β : Type}

/-- A text is contained exactly when it is a key. -/
theorem contains_string_iff {entries : List (Value × α)} {s : String} :
    contains entries (.string s) = true ↔ ∃ e ∈ entries, e.1 = .string s := by
  simp [contains, Value.alike_string_iff]

/-- What is found under a key goes along with what is made of the items. -/
theorem get?_map (f : α → β) (entries : List (Value × α)) (key : Value) :
    get? (entries.map fun e => (e.1, f e.2)) key = (get? entries key).map f := by
  simp only [get?, List.find?_map, Option.map_map]
  rfl

end Entries

namespace Schema

/-! ## Keys -/

/-- A text declares an optional field exactly when it is the name of the field and a question
mark. -/
theorem optionalBase?_eq_some_iff {s base : String} :
    optionalBase? s = some base ↔ s = optionalKey base := by
  constructor
  · intro h
    unfold optionalBase? at h
    split at h
    · rename_i hlast
      obtain ⟨front, hfront⟩ := List.getLast?_eq_some_iff.1 hlast
      have hbase : String.ofList front = base := by simpa [hfront] using h
      rw [← hbase, optionalKey, ← String.toList_inj, String.toList_append, String.toList_ofList,
        hfront]
      rfl
    · simp at h
  · rintro rfl
    exact optionalBase?_optionalKey base

/-! ## Verdicts -/

/-- The verdict on one entry of an object schema, given which names are declared. -/
def declarationVerdict (declared : String → Bool) (e : Value × Value) : Verdict :=
  match keyText e.1 with
  | .error fault => .faults fault
  | .ok s =>
    match optionalBase? s with
    | none => .conforms
    | some base =>
      if declared base then .violates ⟨[.key (.string base)], .conflictingKeys base⟩ else .conforms

/-- The verdict on the keys is that on each entry in order. -/
theorem keyVerdict_eq_forEach (entries : List (Value × Value)) :
    keyVerdict entries = Verdict.forEach
      (declarationVerdict fun name => Entries.contains entries (.string name)) entries := rfl

/-- Where the verdict on the keys conforms, they are texts and no field is declared twice. -/
theorem textKeys_of_keyVerdict {entries : List (Value × Value)}
    (h : keyVerdict entries = .conforms) :
    TextKeys entries ∧ ∀ name : String, Entries.contains entries (.string name) = true →
      Entries.contains entries (.string (optionalKey name)) = false := by
  have hall := (Verdict.forEach_eq_conforms_iff _ _).1 h
  refine ⟨fun e he => ?_, fun name hname => ?_⟩
  · have hentry := hall e he
    cases hkey : e.1 with
    | string s => exact ⟨s, rfl⟩
    | _ => simp [hkey, keyText] at hentry
  · -- The entry that declares the field again as optional would be found.
    rw [Bool.eq_false_iff]
    intro hoptional
    obtain ⟨e, he, hkey⟩ := Entries.contains_string_iff.1 hoptional
    have hentry := hall e he
    simp [hkey, keyText, optionalBase?_optionalKey, hname] at hentry

/-- The verdict on the keys conforms exactly when they are texts and no field is declared twice, and
otherwise it tells which of the two is not so. -/
theorem keyVerdict_cases (entries : List (Value × Value)) :
    (keyVerdict entries = .conforms ∧ TextKeys entries ∧ ∀ name : String,
      Entries.contains entries (.string name) = true →
        Entries.contains entries (.string (optionalKey name)) = false) ∨
    (∃ v, keyVerdict entries = .violates v ∧ v.problem.code = .invalidSchema ∧
      ∃ name : String, Entries.contains entries (.string name) = true ∧
        Entries.contains entries (.string (optionalKey name)) = true) ∨
    (∃ f, keyVerdict entries = .faults f ∧ ¬TextKeys entries) := by
  by_cases hconforms : keyVerdict entries = .conforms
  · exact .inl ⟨hconforms, textKeys_of_keyVerdict hconforms⟩
  · obtain ⟨e, he, hentry⟩ := Verdict.forEach_mem hconforms
    rw [← keyVerdict] at hentry
    cases hkey : e.1 with
    | string s =>
      -- The key that is found declares a field again as optional.
      refine .inr (.inl ?_)
      cases hbase : optionalBase? s with
      | none =>
        simp only [hkey, keyText, hbase] at hentry
        exact absurd hentry.symm hconforms
      | some base =>
        obtain rfl := optionalBase?_eq_some_iff.1 hbase
        cases hcontains : Entries.contains entries (.string base) with
        | false =>
          simp only [hkey, keyText, hbase, hcontains] at hentry
          exact absurd hentry.symm hconforms
        | true =>
          simp only [hkey, keyText, hbase, hcontains, if_true] at hentry
          exact ⟨_, hentry.symm, rfl, base, hcontains,
            Entries.contains_string_iff.2 ⟨e, he, hkey⟩⟩
    | _ =>
      refine .inr (.inr ⟨.keyNotText e.1, ?_, fun htext => ?_⟩)
      · simp only [hkey, keyText] at hentry
        rw [← hentry, hkey]
      · obtain ⟨s, hs⟩ := htext e he
        simp [hkey] at hs

/-- A declared strictness passes exactly when it is absent or a truth value. -/
theorem strictnessVerdict_cases (entries : List (Value × Value)) :
    (strictnessVerdict entries = .conforms ∧
      ∀ v, Entries.get? entries (.string strictKey) = some v → v = .null ∨ ∃ b, v = .boolean b) ∨
    (∃ v, strictnessVerdict entries = .violates v ∧ v.problem.code = .invalidSchema ∧
      ∃ v, Entries.get? entries (.string strictKey) = some v ∧ v ≠ .null ∧
        ∀ b, v ≠ .boolean b) := by
  unfold strictnessVerdict
  cases hget : Entries.get? entries (.string strictKey) with
  | none => simp
  | some v => cases v <;> simp [Verdict.problem, Problem.code]

/-- The verdict on an object schema conforms exactly when its node is sound. -/
theorem objectVerdict_eq_conforms_iff {entries : List (Value × Value)} :
    objectVerdict entries = .conforms ↔ SoundNode (.object entries) := by
  rw [soundNode_object_iff, objectVerdict, Verdict.andThen_eq_conforms_iff]
  rcases keyVerdict_cases entries with
    ⟨hkeys, htext, hdistinct⟩ | ⟨v, hkeys, -, name, hname, hoptional⟩ | ⟨f, hkeys, htext⟩
  · rcases strictnessVerdict_cases entries with
      ⟨hstrict, hstrictness⟩ | ⟨v, hstrict, -, w, hget, hnull, hboolean⟩
    · exact ⟨fun _ => ⟨htext, hdistinct, hstrictness⟩, fun _ => ⟨hkeys, hstrict⟩⟩
    · refine ⟨fun h => by simp [hstrict] at h, fun h => ?_⟩
      rcases h.2.strictness w hget with rfl | ⟨b, rfl⟩
      · exact absurd rfl hnull
      · exact absurd rfl (hboolean b)
  · refine ⟨fun h => by simp [hkeys] at h, fun h => ?_⟩
    rw [h.2.distinct name hname] at hoptional
    exact absurd hoptional (by decide)
  · exact ⟨fun h => by simp [hkeys] at h, fun h => absurd h.1 htext⟩

/-- The verdict on an object schema is the fault of its node. -/
theorem objectVerdict_blames {entries : List (Value × Value)} (room : Int)
    (h : objectVerdict entries ≠ .conforms) :
    Blames (.object entries) room (objectVerdict entries) := by
  have hsound : ¬SoundNode (.object entries) := fun hsound =>
    h (objectVerdict_eq_conforms_iff.2 hsound)
  rw [objectVerdict] at h ⊢
  rcases keyVerdict_cases entries with
    ⟨hkeys, -⟩ | ⟨v, hkeys, hcode, -⟩ | ⟨f, hkeys, htext⟩
  · rw [hkeys] at h ⊢
    rcases strictnessVerdict_cases entries with ⟨hstrict, -⟩ | ⟨v, hstrict, hcode, -⟩
    · exact absurd hstrict h
    · rw [Verdict.andThen, hstrict]
      exact .unsound hcode (.root _) hsound
  · rw [hkeys]
    exact .unsound hcode (.root _) hsound
  · rw [hkeys]
    exact .keys (.root _) htext

/-- What is wrong with the declarations of an object schema is its strictness, or a field that is
declared twice. -/
theorem objectVerdict_violates_cases {entries : List (Value × Value)} {w : Violation}
    (h : objectVerdict entries = .violates w) :
    (∃ shown, w = ⟨[], .invalidStrictness shown⟩) ∨
      ∃ base, Entries.contains entries (.string base) = true ∧
        w = ⟨[.key (.string base)], .conflictingKeys base⟩ := by
  by_cases hkeys : keyVerdict entries = .conforms
  · rw [objectVerdict, hkeys, Verdict.andThen, strictnessVerdict] at h
    split at h
    · cases h
    · cases h
    · cases h
    · exact .inl ⟨_, (Verdict.violates.inj h).symm⟩
  · have hviolates : keyVerdict entries = .violates w := by
      unfold objectVerdict Verdict.andThen at h
      split at h
      · contradiction
      · exact h
    -- Of the verdicts on single keys only that of a field declared twice is a violation.
    obtain ⟨e, -, hentry⟩ := Verdict.forEach_mem hkeys
    rw [← keyVerdict, hviolates] at hentry
    split at hentry
    · cases hentry
    · split at hentry
      · cases hentry
      · split at hentry
        · rename_i hcontains
          exact .inr ⟨_, hcontains, (Verdict.violates.inj hentry).symm⟩
        · cases hentry

/-- Where the keys are texts, the required keys are the texts that declare required fields. -/
theorem requiredKeys_of_textKeys {entries : List (Value × Value)} (htext : TextKeys entries) :
    ∃ required, requiredKeys entries = .ok required ∧ ∀ s, s ∈ required ↔
      ∃ e ∈ entries, e.1 = .string s ∧ isReserved e.1 = false ∧ isOptional s = false := by
  induction entries with
  | nil => exact ⟨[], rfl, by simp⟩
  | cons e rest ih =>
    obtain ⟨key, item⟩ := e
    obtain ⟨t, rfl⟩ : ∃ t, key = .string t := htext (key, item) List.mem_cons_self
    obtain ⟨required, hrest, hmem⟩ := ih fun e he => htext e (List.mem_cons_of_mem _ he)
    -- What is required of all entries is what is required of the rest, and maybe the first key.
    have hcons (s : String) : (∃ e ∈ (Value.string t, item) :: rest,
        e.1 = .string s ∧ isReserved e.1 = false ∧ isOptional s = false) ↔
        (t = s ∧ isReserved (.string t) = false ∧ isOptional t = false) ∨ s ∈ required := by
      rw [hmem]
      simp only [List.mem_cons, exists_eq_or_imp, Value.string.injEq]
      constructor
      · rintro (⟨rfl, h⟩ | h)
        · exact .inl ⟨rfl, h⟩
        · exact .inr h
      · rintro (⟨rfl, h⟩ | h)
        · exact .inl ⟨rfl, h⟩
        · exact .inr h
    cases hreserved : isReserved (.string t) with
    | true =>
      refine ⟨required, by rw [requiredKeys, if_pos hreserved, hrest], fun s => ?_⟩
      rw [hcons, hreserved]
      simp
    | false =>
      cases hoptional : isOptional t with
      | true =>
        refine ⟨required, by simp [requiredKeys, hreserved, hrest, keyText, hoptional], fun s => ?_⟩
        rw [hcons, hoptional]
        simp
      | false =>
        refine ⟨t :: required, by simp [requiredKeys, hreserved, hrest, keyText, hoptional],
          fun s => ?_⟩
        rw [hcons, hreserved, hoptional]
        simp [eq_comm]

/-! ## Lookup -/

/-- What governs a key goes along with what stands for the nodes. -/
theorem governing?_map {α β : Type} (f : α → β) (isAbsent : β → Bool) (entries : List (Value × α))
    (key : Value) :
    governing? isAbsent (entries.map fun e => (e.1, f e.2)) key =
      (governing? (fun item => isAbsent (f item)) entries key).map f := by
  have hfield : field? (entries.map fun e => (e.1, f e.2)) key = (field? entries key).map f := by
    unfold field?
    split
    · rfl
    · rw [Entries.get?_map]
      cases Entries.get? entries key with
      | some item => rfl
      | none =>
        cases key with
        | string s => exact Entries.get?_map f entries _
        | _ => rfl
  unfold governing?
  rw [hfield, Entries.get?_map]
  cases field? entries key with
  | some item => rfl
  | none => exact Option.filter_map

/-- A text that is not reserved is the key of a node. -/
theorem isNodeEntry_of_not_isReserved {key : Value} (h : isReserved key = false) (node : Value) :
    isNodeEntry key node = true := by
  cases key with
  | string s =>
    obtain ⟨hany, hstrict⟩ : s ≠ anyKey ∧ s ≠ strictKey := by simpa [isReserved] using h
    simp [isNodeEntry, hany, hstrict]
  | _ => rfl

/-- A text that declares no optional field is not the key of one. -/
theorem optionalKey_ne {s : String} (h : optionalBase? s = none) (name : String) :
    optionalKey name ≠ s := by
  rintro rfl
  simp [optionalBase?_optionalKey] at h

/-- The key of an optional field is not reserved. -/
theorem isReserved_optionalKey (name : String) :
    isReserved (.string (optionalKey name)) = false := by
  have hany : optionalKey name ≠ anyKey := optionalKey_ne (by decide) name
  have hstrict : optionalKey name ≠ strictKey := optionalKey_ne (by decide) name
  simp [isReserved, hany, hstrict]

/-- No field is found for a key that is reserved, or that neither kind of field names. -/
theorem field?_eq_none_iff {α : Type} {entries : List (Value × α)} {key : Value} :
    field? entries key = none ↔ isReserved key = true ∨ (Entries.contains entries key = false ∧
      ∀ name, key = .string name →
        Entries.contains entries (.string (optionalKey name)) = false) := by
  unfold field?
  cases hreserved : isReserved key with
  | true => simp
  | false =>
    rw [Entries.contains_eq_isSome_get?]
    cases hget : Entries.get? entries key with
    | some found => simp
    | none => cases key <;> simp [Entries.contains_eq_isSome_get?]

/-- What is found as a field is the field of that name, or else the optional one. -/
theorem field?_eq_some_iff {α : Type} {entries : List (Value × α)} {key : Value} {item : α} :
    field? entries key = some item ↔ isReserved key = false ∧
      (Entries.get? entries key = some item ∨ (Entries.contains entries key = false ∧
        ∃ name, key = .string name ∧
          Entries.get? entries (.string (optionalKey name)) = some item)) := by
  unfold field?
  cases hreserved : isReserved key with
  | true => simp
  | false =>
    rw [Entries.contains_eq_isSome_get?]
    cases hget : Entries.get? entries key with
    | some found => simp
    | none => cases key <;> simp

/-- What a field declares for a key is a child of the schema. -/
theorem field?_mem_children {entries : List (Value × Value)} {key node : Value}
    (h : field? entries key = some node) : node ∈ children (.object entries) := by
  obtain ⟨hreserved, hget | ⟨-, name, rfl, hget⟩⟩ := field?_eq_some_iff.1 h
  · obtain ⟨k, hmem, halike⟩ := Entries.exists_of_get?_eq_some hget
    refine mem_children_object_iff.2 ⟨k, hmem, ?_⟩
    cases k with
    | string s =>
      obtain rfl := (Value.alike_string_right_iff _ _).1 halike
      exact isNodeEntry_of_not_isReserved hreserved _
    | _ => rfl
  · -- The key of an optional field ends in a question mark, which no reserved key does.
    obtain ⟨k, hmem, halike⟩ := Entries.exists_of_get?_eq_some hget
    obtain rfl := (Value.alike_string_iff _ _).1 halike
    exact mem_children_object_iff.2
      ⟨_, hmem, isNodeEntry_of_not_isReserved (isReserved_optionalKey name) _⟩

/-- What governs a key of the data is a child of the schema. -/
theorem governing?_mem_children {entries : List (Value × Value)} {key node : Value}
    (h : governing? Value.isNull entries key = some node) : node ∈ children (.object entries) := by
  unfold governing? at h
  split at h
  · rename_i item hfield
    obtain rfl : item = node := by simpa using h
    exact field?_mem_children hfield
  · obtain ⟨hget, hnull⟩ := Option.filter_eq_some_iff.1 h
    obtain ⟨k, hmem, halike⟩ := Entries.exists_of_get?_eq_some hget
    obtain rfl := (Value.alike_string_iff _ _).1 halike
    refine mem_children_object_iff.2 ⟨_, hmem, ?_⟩
    rw [Bool.not_eq_true'] at hnull
    simp [isNodeEntry, hnull, anyKey, strictKey]

/-- What governs a key of the data is an item of the schema. -/
theorem exists_mem_of_governing? {entries : List (Value × Value)} {key node : Value}
    (h : governing? Value.isNull entries key = some node) : ∃ k, (k, node) ∈ entries := by
  obtain ⟨k, hmem, -⟩ := mem_children_object_iff.1 (governing?_mem_children h)
  exact ⟨k, hmem⟩

end Schema

end ShapeSchema
