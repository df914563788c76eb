import ShapeSchema.Proofs.Conformance.Monotonicity
import ShapeSchema.Proofs.Schema.Rewriting

/-!
# Making a required field optional

An object schema asks for less when one of its required fields is made optional: the key of the
field may then be absent, and what is under it is held against the same node as before. Yet not
every value that was accepted is still accepted. The key that declares the optional field, question
mark included, is a key that data may have too. Before, it was covered by whatever stands for
uncovered keys, or by nothing, and now it is held against the node of the field. There is no other
difference (`check_madeOptional_iff`).

That is so because of what governs the keys of the data: for any key but the new one it is the same
node as before (`governs_madeOptional_iff`), and for the new one it is the node of the field
(`governs_optionalKey_iff`).
-/

namespace ShapeSchema.Schema

variable {strict : Bool} {entries : List (Value × Value)} {name : String} {key node v : Value}

/-! ## Lookup -/

/-- Names are told apart by the keys that make them optional. -/
theorem optionalKey_inj {name name' : String} :
    optionalKey name = optionalKey name' ↔ name = name' := by
  rw [← optionalBase?_eq_some_iff, optionalBase?_optionalKey, Option.some_inj]

/-- No name is the key that makes it optional. -/
theorem optionalKey_ne_self (name : String) : optionalKey name ≠ name := by
  intro h
  have hlength := congrArg String.length h
  simp [optionalKey] at hlength

/-- The entries of the schema with the field made optional are the others and the renamed one. -/
theorem mem_madeOptional_iff {e : Value × Value} :
    e ∈ madeOptional name entries ↔ (e ∈ entries ∧ e.1 ≠ .string name) ∨
      ∃ node, (Value.string name, node) ∈ entries ∧ e = (.string (optionalKey name), node) := by
  rw [madeOptional, List.mem_map]
  constructor
  · rintro ⟨e', he', rfl⟩
    split
    · rename_i hname
      rw [Value.alike_string_iff] at hname
      exact .inr ⟨e'.2, hname ▸ he', rfl⟩
    · rename_i hname
      rw [Value.alike_string_iff] at hname
      exact .inl ⟨he', hname⟩
  · rintro (⟨he, hname⟩ | ⟨node, hmem, rfl⟩)
    · exact ⟨e, he, by simp [Value.alike_string_iff, hname]⟩
    · exact ⟨_, hmem, by simp [Value.alike_string_iff]⟩

/-- Under other keys than the old one and the new one the same is found. -/
theorem get?_madeOptional_of_ne (hname : key ≠ .string name)
    (hoptional : key ≠ .string (optionalKey name)) :
    Entries.get? (madeOptional name entries) key = Entries.get? entries key := by
  induction entries with
  | nil => rfl
  | cons e rest ih =>
    rw [madeOptional, List.map_cons, Entries.get?_cons, Entries.get?_cons, ← madeOptional, ih]
    split
    · rename_i hrenamed
      rw [(Value.alike_string_iff _ _).1 hrenamed, Value.alike_string_right_of_ne hname,
        Value.alike_string_right_of_ne hoptional]
    · rfl

/-- Under the reserved keys the same is found. -/
theorem get?_madeOptional_of_isReserved (hreserved : isReserved (.string name) = false)
    (hkey : isReserved key = true) :
    Entries.get? (madeOptional name entries) key = Entries.get? entries key := by
  refine get?_madeOptional_of_ne ?_ ?_
  · rintro rfl
    simp [hreserved] at hkey
  · rintro rfl
    simp [isReserved_optionalKey] at hkey

/-- Under the old key nothing is left. -/
theorem get?_name_madeOptional :
    Entries.get? (madeOptional name entries) (.string name) = none := by
  rw [← Option.not_isSome_iff_eq_none, ← Entries.contains_eq_isSome_get?,
    Entries.contains_string_iff]
  rintro ⟨e, he, hkey⟩
  rcases mem_madeOptional_iff.1 he with ⟨-, hname⟩ | ⟨node, -, rfl⟩
  · exact hname hkey
  · exact optionalKey_ne_self name (Value.string.inj hkey)

/-- Under the new key there is what was under the old one. -/
theorem get?_optionalKey_madeOptional
    (h : Entries.contains entries (.string (optionalKey name)) = false) :
    Entries.get? (madeOptional name entries) (.string (optionalKey name)) =
      Entries.get? entries (.string name) := by
  induction entries with
  | nil => rfl
  | cons e rest ih =>
    rw [Entries.contains, List.any_cons, Bool.or_eq_false_iff] at h
    rw [madeOptional, List.map_cons, Entries.get?_cons, Entries.get?_cons, ← madeOptional, ih h.2]
    cases hname : (Value.string name).alike e.1 with
    | true => simp [Value.alike]
    | false => simp [h.1]

/-! ## What governs a key -/

section

variable (hreserved : isReserved (.string name) = false) (hrequired : isOptional name = false)
  (hnew : Entries.contains entries (.string (optionalKey name)) = false)

include hreserved hrequired hnew

/-- For any key but the new one the same field is found. -/
theorem field?_madeOptional (hkey : key ≠ .string (optionalKey name)) :
    field? (madeOptional name entries) key = field? entries key := by
  by_cases hname : key = .string name
  · -- What was found under the old key is now found as an optional field.
    subst hname
    have hnone : Entries.get? entries (.string (optionalKey name)) = none := by
      simpa [Entries.contains_eq_isSome_get?] using hnew
    simp only [field?, hreserved, get?_name_madeOptional, get?_optionalKey_madeOptional hnew, hnone]
    cases Entries.get? entries (.string name) <;> rfl
  · unfold field?
    rw [get?_madeOptional_of_ne hname hkey]
    cases key with
    | string s =>
      -- No name makes the required field optional but its own.
      have hoptional : Value.string (optionalKey s) ≠ .string name := by
        rw [ne_eq, Value.string.injEq]
        exact optionalKey_ne (by simpa [isOptional] using hrequired) s
      have hother : Value.string (optionalKey s) ≠ .string (optionalKey name) := by
        rw [ne_eq, Value.string.injEq, optionalKey_inj]
        exact fun h => hname (h ▸ rfl)
      simp only [get?_madeOptional_of_ne hoptional hother]
    | _ => rfl

/-- Any key but the new one is governed by the same node. -/
theorem governs_madeOptional_iff (hkey : key ≠ .string (optionalKey name)) :
    Governs (madeOptional name entries) key node ↔ Governs entries key node := by
  rw [governs_iff, governs_iff, governing?, governing?,
    get?_madeOptional_of_isReserved hreserved (by decide),
    field?_madeOptional hreserved hrequired hnew hkey]

omit hreserved hrequired in
/-- The new key is governed by the node of the field. -/
theorem governs_optionalKey_iff {field : Value}
    (hfield : Entries.get? entries (.string name) = some field) :
    Governs (madeOptional name entries) (.string (optionalKey name)) node ↔ node = field := by
  have hget : Entries.get? (madeOptional name entries) (.string (optionalKey name)) = some field :=
    (get?_optionalKey_madeOptional hnew).trans hfield
  rw [governs_iff, governs_iff.1 (.field (isReserved_optionalKey name) hget), Option.some_inj,
    eq_comm]

end

/-! ## Conformance -/

/-- An object schema refuses the same keys when a field is made optional. -/
theorem strictness_madeOptional (hreserved : isReserved (.string name) = false) :
    strictness (madeOptional name entries) strict = strictness entries strict := by
  rw [strictness, strictness, get?_madeOptional_of_isReserved hreserved (by decide)]

/-- What conforms to an object schema has items that conform to what governs their keys. -/
theorem Accepts.item {item : Value} (h : Accepts strict (.object entries) v)
    (hgoverns : Governs entries key node) (hitem : v.StepsTo (.key key) item) :
    Accepts strict node item := by
  cases hitem with
  | key mem =>
    cases h with
    | object _ _ _ accepts => exact accepts _ mem node hgoverns
    | _ => simp_all [Value.items?]

variable {field : Value}

/-- A value that conforms to an object schema still does when a required field is made optional, if
what it has under the new key conforms to the node of the field. -/
theorem Accepts.madeOptional (hreserved : isReserved (.string name) = false)
    (hrequired : isOptional name = false)
    (hnew : Entries.contains entries (.string (optionalKey name)) = false)
    (hfield : Entries.get? entries (.string name) = some field)
    (hsound : SoundEntries (madeOptional name entries)) (h : Accepts strict (.object entries) v)
    (hitem : ∀ item, v.StepsTo (.key (.string (optionalKey name))) item →
      Accepts strict field item) :
    Accepts strict (.object (madeOptional name entries)) v := by
  have hother {key node : Value} (hkey : key ≠ .string (optionalKey name)) :
      Governs (Schema.madeOptional name entries) key node ↔ Governs entries key node :=
    governs_madeOptional_iff hreserved hrequired hnew hkey
  cases h with
  | object _ required covered accepts =>
    refine .object hsound ?_ ?_ ?_
    · intro e he hdeclares hrequires
      rcases mem_madeOptional_iff.1 he with ⟨he, -⟩ | ⟨node, -, rfl⟩
      · exact required e he hdeclares hrequires
      · -- The renamed entry requires nothing.
        have := hrequires _ rfl
        simp [isOptional, optionalBase?_optionalKey] at this
    · intro e he huncovered
      rw [strictness_madeOptional hreserved]
      by_cases hkey : e.1 = .string (optionalKey name)
      · exact absurd (hkey ▸ (governs_optionalKey_iff hnew hfield).2 rfl) (huncovered field)
      · exact covered e he fun node hnode => huncovered node ((hother hkey).2 hnode)
    · intro e he node hnode
      by_cases hkey : e.1 = .string (optionalKey name)
      · rw [hkey, governs_optionalKey_iff hnew hfield] at hnode
        exact hnode ▸ hitem e.2 (.key (hkey ▸ he))
      · exact accepts e he node ((hother hkey).1 hnode)
  | _ => simp_all [Value.items?]

/-! ## Checks -/

/-- What an audit accepts, an audit of a part accepts under a limit that is lower by one. -/
theorem checkSchema_child {schema child : Value} {auditStart : String} {limit : Int}
    (haudit : checkSchema schema auditStart limit = .nothing) (hchild : child ∈ children schema)
    (start : String) : checkSchema child start (limit - 1) = .nothing := by
  rw [checkSchema, Verdict.answer_eq_nothing_iff] at haudit ⊢
  exact ((audit_eq_conforms_iff_children schema limit).1 haudit).2.2 child hchild

/-- **What making a required field optional changes.** If a check against an object schema has
nothing to say of a value, then neither has the check against the schema with a required field made
optional, exactly if the value has nothing under the key that declares the optional field, or what
it has there passes a check against the field on its own. -/
theorem check_madeOptional_iff {auditStart auditStart' : String} {limit : Int}
    (hreserved : isReserved (.string name) = false) (hrequired : isOptional name = false)
    (hfield : Entries.get? entries (.string name) = some field)
    (haudit : checkSchema (.object entries) auditStart limit = .nothing)
    (haudit' : checkSchema (.object (madeOptional name entries)) auditStart' limit = .nothing)
    {start : String} (h : check strict (.object entries) start limit v = .nothing)
    (itemStart : String) :
    check strict (.object (madeOptional name entries)) start limit v = .nothing ↔
      ∀ item, v.StepsTo (.key (.string (optionalKey name))) item →
        check strict field itemStart (limit - 1) item = .nothing := by
  have hsound {entries : List (Value × Value)} {auditStart : String}
      (h : checkSchema (.object entries) auditStart limit = .nothing) : SoundEntries entries :=
    (soundNode_object_iff.1 ((wellFormed_iff _).1 (wellFormed_of_checkSchema h).1).1).2
  have hnew : Entries.contains entries (.string (optionalKey name)) = false :=
    (hsound haudit).distinct name (by rw [Entries.contains_eq_isSome_get?, hfield]; rfl)
  have hchild : field ∈ children (.object entries) :=
    field?_mem_children (field?_eq_some_iff.2 ⟨hreserved, .inl hfield⟩)
  -- Both checks and that of the part decide conformance, in which there is no limit.
  have hpart := checkSchema_child haudit hchild itemStart
  rw [check_eq_nothing_iff_accepts haudit] at h
  simp only [check_eq_nothing_iff_accepts haudit', check_eq_nothing_iff_accepts hpart]
  constructor
  · intro haccepts item hitem
    exact haccepts.item ((governs_optionalKey_iff hnew hfield).2 rfl) hitem
  · exact h.madeOptional hreserved hrequired hnew hfield (hsound haudit')

/-- A text under the new key is covered by what stands for uncovered keys, and passes too when the
field is made optional. -/
theorem check_madeOptional_text :
    checkSchema (.object [(.string "a", .string "string"), (.string anyKey, .string "any")]) "$" 1 =
        .nothing ∧
      checkSchema (.object (madeOptional "a"
        [(.string "a", .string "string"), (.string anyKey, .string "any")])) "$" 1 = .nothing ∧
      check true (.object [(.string "a", .string "string"), (.string anyKey, .string "any")]) "$" 1
        (.object [(.string "a", .string "x"), (.string "a?", .string "y")]) = .nothing ∧
      check true (.object (madeOptional "a"
          [(.string "a", .string "string"), (.string anyKey, .string "any")])) "$" 1
        (.object [(.string "a", .string "x"), (.string "a?", .string "y")]) = .nothing := by
  have haudit : checkSchema (.object [(.string "a", .string "string"),
      (.string anyKey, .string "any")]) "$" 1 = .nothing := rfl
  have haudit' : checkSchema (.object (madeOptional "a"
      [(.string "a", .string "string"), (.string anyKey, .string "any")])) "$" 1 = .nothing := rfl
  have hcheck : check true (.object [(.string "a", .string "string"),
      (.string anyKey, .string "any")]) "$" 1
        (.object [(.string "a", .string "x"), (.string "a?", .string "y")]) = .nothing := rfl
  have hname : isReserved (.string "a") = false ∧ isOptional "a" = false := by decide
  refine ⟨haudit, haudit', hcheck,
    (check_madeOptional_iff hname.1 hname.2 rfl haudit haudit' hcheck "$").2 fun item hitem => ?_⟩
  cases hitem with
  | key mem =>
    obtain rfl : item = .string "y" := by simpa [optionalKey] using mem
    rfl

/-- A number under the new key is covered by what stands for uncovered keys, but it is refused when
the field is made optional. -/
theorem check_madeOptional_number :
    isReserved (.string "a") = false ∧ isOptional "a" = false ∧
      checkSchema (.object [(.string "a", .string "string"), (.string anyKey, .string "any")])
        "" 200 = .nothing ∧
      checkSchema (.object (madeOptional "a"
        [(.string "a", .string "string"), (.string anyKey, .string "any")])) "" 200 = .nothing ∧
      check true (.object [(.string "a", .string "string"), (.string anyKey, .string "any")]) "" 200
        (.object [(.string "a", .string "x"), (.string "a?", .integer 1)]) = .nothing ∧
      check true (.object (madeOptional "a"
          [(.string "a", .string "string"), (.string anyKey, .string "any")])) "" 200
        (.object [(.string "a", .string "x"), (.string "a?", .integer 1)]) =
          .report ⟨"'a?': expected type 'string', got 'number'", .string "type_mismatch",
            .string "a?", []⟩ :=
  ⟨by decide, by decide, rfl, rfl, rfl, rfl⟩

end ShapeSchema.Schema
