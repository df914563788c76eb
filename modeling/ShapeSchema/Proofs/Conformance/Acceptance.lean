import ShapeSchema.Conformance.Accepts
import ShapeSchema.Proofs.Conformance.DepthLimit

/-!
# A check decides conformance

A check ends well only for values that conform to the schema (`accepts_of_run`), and a value that
conforms is never rejected (`not_rejects_of_accepts`): what keeps a check of it from ending well is
a limit of depth or a key that is no text. `check_iff_accepts` says both of the answer.
-/

namespace ShapeSchema

/-- A tag takes exactly the values that it names. -/
theorem Tag.holds_iff {t : Tag} {v : Value} : t.Holds v ↔ Checker.tagAccepts t v = true := by
  cases t <;> cases v <;>
    simp [Tag.Holds, Tag.text, Checker.tagAccepts, Value.kind, Kind.text, Value.IsForeign,
      Value.isInteger, Value.isSequence, Value.items?, Double.isIntegral, Option.isSome_iff_exists]

namespace Schema

/-- What governs a key is what the lookup finds. -/
theorem governs_iff {entries : List (Value × Value)} {key node : Value} :
    Governs entries key node ↔ governing? Value.isNull entries key = some node := by
  unfold governing?
  constructor
  · intro h
    cases h with
    | field hreserved hget =>
      rw [field?_eq_some_iff.2 ⟨hreserved, .inl hget⟩]
    | optionalField hkey hreserved hfield hget =>
      rw [field?_eq_some_iff.2 ⟨hreserved, .inr ⟨hfield, _, hkey, hget⟩⟩]
    | uncovered hfield hget hnull =>
      rw [field?_eq_none_iff.2 hfield, hget]
      exact Option.filter_eq_some_iff.2 ⟨rfl, by cases node <;> simp_all [Value.isNull]⟩
  · intro h
    cases hfield : field? entries key with
    | some item =>
      obtain rfl : item = node := by simpa [hfield] using h
      obtain ⟨hreserved, hget | ⟨hnone, name, hkey, hget⟩⟩ := field?_eq_some_iff.1 hfield
      · exact .field hreserved hget
      · exact .optionalField hkey hreserved hnone hget
    | none =>
      rw [hfield] at h
      obtain ⟨hget, hnull⟩ := Option.filter_eq_some_iff.1 h
      refine .uncovered (field?_eq_none_iff.1 hfield) hget ?_
      rintro rfl
      simp [Value.isNull] at hnull

/-! ## Form by form -/

variable {strict : Bool} {schema v : Value}

/-- Only tags say anything of a value without having parts. -/
theorem Accepts.scalar (h : Accepts strict schema v) (hitems : schema.items? = none)
    (hentries : schema.entries? = none) : ∃ t : Tag, schema = .string t.text ∧ t.Holds v := by
  cases h with
  | tag hholds => exact ⟨_, rfl, hholds⟩
  | object => simp [Value.entries?] at hentries
  | _ => simp_all

/-- What a sequence says of a value, in each of its forms. -/
theorem Accepts.sequence {items : List Value} (h : Accepts strict schema v)
    (hschema : schema.items? = some items) :
    (∃ members, items = .string "enum" :: members ∧ ∃ member ∈ members, v.same member = true) ∨
    (∃ alternatives, items = .string "or" :: alternatives ∧
      ∃ alternative ∈ alternatives, Accepts strict alternative v) ∨
    (form items = .array ∧ ∃ data pairs, v.items? = some data ∧ Pairs items data pairs ∧
      ∀ p ∈ pairs, Accepts strict p.1 p.2) := by
  cases h with
  | tag => simp [Value.items?] at hschema
  | object => simp [Value.items?] at hschema
  | enumeration hitems mem same =>
    obtain rfl := Option.some.inj (hschema.symm.trans hitems)
    exact .inl ⟨_, rfl, _, mem, same⟩
  | union hitems mem haccepts =>
    obtain rfl := Option.some.inj (hschema.symm.trans hitems)
    exact .inr (.inl ⟨_, rfl, _, mem, haccepts⟩)
  | nil hitems hdata =>
    obtain rfl := Option.some.inj (hschema.symm.trans hitems)
    exact .inr (.inr ⟨rfl, [], [], hdata, .nil, by simp⟩)
  | single hitems hform hdata haccepts =>
    obtain rfl := Option.some.inj (hschema.symm.trans hitems)
    exact .inr (.inr ⟨hform, _, _, hdata, .single, by simpa using haccepts⟩)
  | repeated hitems hform hmark hdata hlength hrest hlead hall =>
    obtain rfl := Option.some.inj (hschema.symm.trans hitems)
    refine .inr (.inr ⟨hform, _, _, hdata, .repeated hmark hlength.symm hrest, ?_⟩)
    rw [List.forall_mem_append, List.forall_mem_map]
    exact ⟨hlead, hall⟩
  | fixed hitems hform htwo hmark hdata hlength haccepts =>
    rename_i nodes data
    obtain rfl := Option.some.inj (hschema.symm.trans hitems)
    refine .inr (.inr ⟨hform, data, ?_⟩)
    -- Both lists end in two elements, and those in front of them are as many.
    rcases exists_append_pair items with rfl | ⟨node, rfl⟩ | ⟨lead, node, last, rfl⟩
    · simp at htwo
    · simp at htwo
    rcases exists_append_pair data with rfl | ⟨item, rfl⟩ | ⟨front, item, final, rfl⟩
    · simp at hlength
    · simp at hlength
    have hfront : lead.length = front.length := by simpa using hlength.symm
    rw [endsInMark_append_pair, Option.isSome_eq_false_iff, Option.isNone_iff_eq_none] at hmark
    rw [List.zip_append hfront] at haccepts
    exact ⟨_, hdata, .fixed hmark hfront, haccepts⟩

/-- An array conforms to an array schema when its pairs do. -/
theorem accepts_of_pairs {nodes data : List Value} {pairs : List (Value × Value)}
    (hschema : schema.items? = some nodes) (hform : form nodes = .array)
    (hdata : v.items? = some data) (hpairs : Pairs nodes data pairs)
    (h : ∀ p ∈ pairs, Accepts strict p.1 p.2) : Accepts strict schema v := by
  cases hpairs with
  | nil => exact .nil hschema hdata
  | single => exact .single hschema hform hdata (h _ List.mem_cons_self)
  | repeated hmark hlength hrest =>
    rw [List.forall_mem_append, List.forall_mem_map] at h
    exact .repeated hschema hform hmark hdata hlength.symm hrest h.1 h.2
  | fixed hmark hlength =>
    refine .fixed hschema hform (by simp) ?_ hdata (by simp [hlength]) ?_
    · rw [endsInMark_append_pair, hmark]
      rfl
    · rw [List.zip_append hlength]
      exact h

/-! ## Soundness -/

/-- What governs a key of the data is an item of the object schema. -/
theorem Governs.exists_mem {entries : List (Value × Value)} {key node : Value}
    (h : Governs entries key node) : ∃ k, (k, node) ∈ entries :=
  exists_mem_of_governing? (governs_iff.1 h)

/-- Data whose run against an object schema ends well conform to the schema, if that is so of what
is held against the nodes that govern their keys. -/
theorem accepts_object_of_entries {entries data : List (Value × Value)} {room : Int}
    (hparts : ∀ key node item, Governs entries key node →
      (run strict node (room - 1) item).verdict = .conforms → Accepts strict node item)
    (h : (Checker.entries strict entries (entries.map fun e => (e.1, node strict e.2)) room
      data).verdict = .conforms) :
    Accepts strict (.object entries) (.object data) := by
  rcases Checker.entries_cases strict entries (entries.map fun e => (e.1, node strict e.2)) room
      data with
    ⟨-, hverdict, hrun⟩ | ⟨-, name, -, -, hrun⟩ | ⟨hsound, hrequired, hrun⟩
  · rw [hrun] at h
    exact absurd h hverdict
  · rw [hrun] at h
    simp [Run.silent] at h
  obtain ⟨htext, hsound⟩ := soundNode_object_iff.1 hsound
  rw [hrun, Run.forEach_conforms_iff] at h
  have hcovered : ∀ e ∈ data, (∀ node, ¬Governs entries e.1 node) →
      strictness entries strict = false := by
    intro e he huncovered
    have hentry := h e he
    have hnone : governing? Value.isNull entries e.1 = none := by
      rw [Option.eq_none_iff_forall_ne_some]
      exact fun node hnode => huncovered node (governs_iff.2 hnode)
    rw [Checker.entry_fields, hnone] at hentry
    cases hstrict : strictness entries strict with
    | false => rfl
    | true => simp [hstrict, Run.silent] at hentry
  have haccepts : ∀ e ∈ data, ∀ node, Governs entries e.1 node → Accepts strict node e.2 := by
    intro e he node hgoverns
    have hentry := h e he
    rw [Checker.entry_fields, governs_iff.1 hgoverns] at hentry
    exact hparts e.1 node e.2 hgoverns (Run.under_conforms_iff.1 hentry)
  refine .object hsound (fun e he hreserved hoptional => ?_) hcovered haccepts
  obtain ⟨s, hs⟩ := htext e he
  rw [hs]
  exact hrequired e he s hs hreserved (hoptional s hs)

/-- A value against which a run ends well conforms to the schema. -/
theorem accepts_of_run {room : Int} (h : (run strict schema room v).verdict = .conforms) :
    Accepts strict schema v := by
  -- The parts of the schema are held against other values and with less room.
  induction schema using induct_parts generalizing room v with
  | sequence schema items hitems ih =>
    rw [run_of_items? strict room v hitems] at h
    split at h
    · simp [Run.tooDeep, Verdict.problem] at h
    cases hform : form items with
    | enumeration =>
      obtain ⟨members, rfl⟩ := form_eq_enumeration_iff.1 hform
      rw [Checker.sequence_enumeration, Checker.enumeration] at h
      split at h
      · obtain ⟨member, hmem, hsame⟩ := List.any_eq_true.1 ‹_›
        exact .enumeration hitems hmem hsame
      · exact absurd h (Run.problem_not_conforms _)
    | union =>
      obtain ⟨alternatives, rfl⟩ := form_eq_union_iff.1 hform
      rw [Checker.sequence_union, Checker.union] at h
      obtain ⟨n, hn, hrun⟩ := Checker.exists_of_attempt_conforms h
      obtain ⟨alternative, hmem, rfl⟩ := List.mem_map.1 hn
      exact .union hitems hmem (ih alternative (List.mem_cons_of_mem _ hmem) hrun)
    | array =>
      rw [Checker.sequence_array hform, Checker.array] at h
      split at h
      · obtain ⟨pairs, hpairs, hruns⟩ := Checker.exists_pairs_of_elements_conforms h
        exact accepts_of_pairs hitems hform ‹_› hpairs fun p hp =>
          ih p.1 (hpairs.mem hp) (hruns p hp)
      · exact absurd h (Run.problem_not_conforms _)
  | object entries ih =>
    rw [run_object] at h
    split at h
    · simp [Run.tooDeep, Verdict.problem] at h
    rw [Checker.object] at h
    split at h
    · rename_i data hdata
      obtain rfl := Value.entries?_eq_some_iff.1 hdata
      refine accepts_object_of_entries (fun key node item hgoverns hrun => ?_) h
      obtain ⟨k, hmem⟩ := hgoverns.exists_mem
      exact ih (k, node) hmem hrun
    · exact absurd h (Run.problem_not_conforms _)
  | scalar schema hitems hentries =>
    rw [run_scalar strict room v hitems hentries] at h
    split at h
    · simp [Run.tooDeep, Verdict.problem] at h
    rcases Checker.scalar_cases room v hitems hentries with ⟨t, rfl, hrun⟩ | ⟨-, hverdict, hrun⟩
    · rw [hrun] at h
      split at h
      · exact .tag (Tag.holds_iff.2 ‹_›)
      · exact absurd h (Run.problem_not_conforms _)
    · rw [hrun] at h
      exact absurd h hverdict

/-! ## Completeness -/

/-- Sound declarations are not rejected, though they may be under keys that are no texts. -/
theorem objectVerdict_not_rejects {entries : List (Value × Value)} (hsound : SoundEntries entries) :
    ¬(objectVerdict entries).Rejects := by
  rw [objectVerdict]
  rcases keyVerdict_cases entries with
    ⟨hkeys, -⟩ | ⟨v, -, -, name, hname, hoptional⟩ | ⟨f, hkeys, -⟩
  · rw [hkeys]
    rcases strictnessVerdict_cases entries with ⟨hstrict, -⟩ | ⟨v, -, -, w, hget, hnull, hboolean⟩
    · rw [Verdict.andThen, hstrict]
      exact Verdict.mobile_not_rejects.conforms
    · rcases hsound.strictness w hget with rfl | ⟨b, rfl⟩
      · exact absurd rfl hnull
      · exact absurd rfl (hboolean b)
  · rw [hsound.distinct name hname] at hoptional
    exact absurd hoptional (by decide)
  · rw [hkeys]
    exact Verdict.faults_not_rejects f

/-- Data that conform to an object schema are not rejected, if that is so of what is held against
the nodes that govern their keys. -/
theorem entries_not_rejects {entries data : List (Value × Value)} {room : Int}
    (hparts : ∀ key node item, Governs entries key node → Accepts strict node item →
      ¬(run strict node (room - 1) item).verdict.Rejects)
    (h : Accepts strict (.object entries) (.object data)) :
    ¬(Checker.entries strict entries (entries.map fun e => (e.1, node strict e.2)) room
      data).verdict.Rejects := by
  have hmobile := Verdict.mobile_not_rejects
  cases h with
  | object hsound hrequired hcovered haccepts =>
    rcases Checker.entries_cases strict entries (entries.map fun e => (e.1, node strict e.2)) room
        data with
      ⟨-, -, hrun⟩ | ⟨-, name, ⟨e, he, hkey, hreserved, hoptional⟩, hmissing, -⟩ | ⟨-, -, hrun⟩
    · rw [hrun]
      exact objectVerdict_not_rejects hsound
    · -- The key that is missed is a required one.
      have hname : ∀ s, e.1 = .string s → isOptional s = false := by
        intro s hs
        obtain rfl : name = s := by simpa [hkey] using hs
        exact hoptional
      have hcontains := hrequired e he hreserved hname
      rw [hkey, hmissing] at hcontains
      exact absurd hcontains (by decide)
    · rw [hrun]
      refine hmobile.forEach fun e he => ?_
      rw [Checker.entry_fields]
      cases hgoverning : governing? Value.isNull entries e.1 with
      | some child =>
        have hgoverns := governs_iff.2 hgoverning
        exact hmobile.under _ (hparts e.1 child e.2 hgoverns (haccepts e he child hgoverns))
      | none =>
        have huncovered : ∀ child, ¬Governs entries e.1 child := by
          intro child hgoverns
          simp [governs_iff.1 hgoverns] at hgoverning
        rw [hcovered e he huncovered]
        exact hmobile.conforms
  | _ => simp_all [Value.items?]

/-- A value that conforms to the schema is not rejected, however much room there is. -/
theorem not_rejects_of_accepts (h : Accepts strict schema v) (room : Int) :
    ¬(run strict schema room v).verdict.Rejects := by
  have hmobile := Verdict.mobile_not_rejects
  induction schema using induct_parts generalizing room v with
  | sequence schema items hitems ih =>
    rw [run_of_items? strict room v hitems]
    split
    · exact Run.tooDeep_not_rejects
    rcases h.sequence hitems with
      ⟨members, rfl, member, hmem, hsame⟩ | ⟨alternatives, rfl, alternative, hmem, haccepts⟩ |
        ⟨hform, data, pairs, hdata, hpairs, haccepts⟩
    · rw [Checker.sequence_enumeration, Checker.enumeration,
        if_pos (List.any_eq_true.2 ⟨member, hmem, hsame⟩)]
      exact hmobile.conforms
    · rw [Checker.sequence_union]
      exact fun hrejects => ih alternative (List.mem_cons_of_mem _ hmem) haccepts _
        (Checker.attempt_rejects_iff.1 hrejects _ (List.mem_map_of_mem hmem))
    · rw [Checker.sequence_array hform, Checker.array, hdata]
      exact hmobile.elements hpairs fun p hp => ih p.1 (hpairs.mem hp) (haccepts p hp) _
  | object entries ih =>
    rw [run_object]
    split
    · exact Run.tooDeep_not_rejects
    obtain ⟨data, rfl⟩ : ∃ data, v = .object data := by
      cases h with
      | object => exact ⟨_, rfl⟩
      | _ => simp_all [Value.items?]
    refine entries_not_rejects (fun key node item hgoverns haccepts => ?_) h
    obtain ⟨k, hmem⟩ := hgoverns.exists_mem
    exact ih (k, node) hmem haccepts _
  | scalar schema hitems hentries =>
    rw [run_scalar strict room v hitems hentries]
    split
    · exact Run.tooDeep_not_rejects
    obtain ⟨t, rfl, hholds⟩ := h.scalar hitems hentries
    rw [Checker.scalar, (Tag.ofText?_eq_some_iff _ t).2 rfl]
    dsimp only
    rw [if_pos (Tag.holds_iff.1 hholds)]
    exact hmobile.conforms

/-- **A check decides conformance.** A check against which there is nothing to say is one of a value
that conforms. Of a value that conforms there is nothing to say, unless a key of the schema is no
text or the limit is reached; and where all keys are texts and the limit is no lower than the schema
is high, a check has nothing to say exactly of the values that conform. -/
theorem check_iff_accepts (strict : Bool) (schema : Value) (start : String) (limit : Int)
    (v : Value) :
    (check strict schema start limit v = .nothing → Accepts strict schema v) ∧
    (Accepts strict schema v → check strict schema start limit v = .nothing ∨
      (∃ f, check strict schema start limit v = .fault f) ∨
      (check strict schema start limit v).HasCode .maxDepthExceeded) ∧
    (TextKeyed schema → (height schema : Int) ≤ limit →
      (check strict schema start limit v = .nothing ↔ Accepts strict schema v)) := by
  rw [check, Verdict.answer_eq_nothing_iff, Verdict.answer_hasCode_maxDepthExceeded_iff]
  refine ⟨accepts_of_run, fun haccepts => ?_, fun htext hheight =>
    ⟨accepts_of_run, fun haccepts => ?_⟩⟩
  · have hrejects := not_rejects_of_accepts haccepts limit
    cases hverdict : (run strict schema limit v).verdict with
    | conforms => exact .inl rfl
    | faults f => exact .inr (.inl ⟨f, rfl⟩)
    | violates violation =>
      have hproblem : violation.problem = .tooDeep := by
        by_contra hother
        exact hrejects ⟨violation, hverdict, hother⟩
      exact .inr (.inr ⟨violation, rfl, hproblem⟩)
  · have hrejects := not_rejects_of_accepts haccepts limit
    have hdeep := run_not_tooDeep strict hheight v
    have hviolates : ∀ violation, (run strict schema limit v).verdict ≠ .violates violation := by
      intro violation h
      by_cases hproblem : violation.problem = .tooDeep
      · exact hdeep ⟨violation, h, hproblem⟩
      · exact hrejects ⟨violation, h, hproblem⟩
    rcases run_accounts strict schema limit v with h | ⟨violation, h, -⟩ | hblames
    · exact h
    · exact absurd h (hviolates violation)
    · obtain ⟨violation, h, -⟩ := hblames.of_textKeyed htext
      exact absurd h (hviolates violation)

/-- The mark of at least one repetition takes an array of one position more than what stands in
front, and no array without it. -/
theorem check_at_least_once :
    TextKeyed (.list [.string "string", .string "integer", .string "+"]) ∧
      (height (.list [.string "string", .string "integer", .string "+"]) : Int) ≤ 1 ∧
      Accepts true (.list [.string "string", .string "integer", .string "+"])
        (.list [.string "x", .integer 1]) ∧
      ¬Accepts true (.list [.string "string", .string "integer", .string "+"])
        (.list [.string "x"]) := by
  have htext : TextKeyed (.list [.string "string", .string "integer", .string "+"]) :=
    ((audit_eq_conforms_iff _ 1).1 rfl).1.textKeyed
  have hheight : (height (.list [.string "string", .string "integer", .string "+"]) : Int) ≤ 1 := by
    decide
  refine ⟨htext, hheight, ?_, fun haccepts => ?_⟩
  · exact ((check_iff_accepts true _ "$" 1 _).2.2 htext hheight).1 rfl
  · exact nomatch ((check_iff_accepts true _ "$" 1 _).2.2 htext hheight).2 haccepts

end Schema

end ShapeSchema
