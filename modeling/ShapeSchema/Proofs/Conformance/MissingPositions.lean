import ShapeSchema.Conformance.Accepts
import ShapeSchema.Schema.Rewriting
import ShapeSchema.Proofs.Conformance.NestedUnions
import ShapeSchema.Proofs.Value.Equality

/-!
# Missing positions

An array schema with a lone node is asked about the first position of an array even if nothing is
there. The marker `Value.missing` stands for it, and it is held against the node as data are. All
that a node can do with it is to look at its kind, so that it belongs to no class of values but the
one of all, and is the same as no member of an enumeration but the marker itself.

`MissingVerdict` is what then comes out. It holds of each form of schema (`run_missing`), with
unions put together from their alternatives (`MissingVerdict.orElse`), and `check_missing_position`
is the answer to an array without elements.
-/

namespace ShapeSchema

/-- The codes of what can be wrong with a missing position. -/
def ReasonCode.ofMissing : List ReasonCode :=
  [.typeMismatch, .unionMismatch, .enumMismatch, .invalidSchema]

/-- The marker is the same as nothing else. -/
theorem Value.eq_missing_of_same {w : Value} (h : Value.missing.same w = true) : w = .missing := by
  obtain ⟨hkind, -, -⟩ := Value.same_iff.1 h
  cases w with
  | missing => rfl
  | _ => cases hkind

/-- The marker belongs to no class of values but the one of all. -/
theorem Checker.tagAccepts_missing_iff {t : Tag} : tagAccepts t .missing = true ↔ t = .any := by
  cases t <;> decide

namespace Schema

variable {schema : Value} {strict : Bool} {room : Int}

/-! ## Schemas that allow it -/

/-- What is no sequence allows a missing position only as the tag of all values. -/
theorem AllowsMissing.eq_any (h : AllowsMissing schema) (hitems : schema.items? = none) :
    schema = .string Tag.any.text := by
  cases h with
  | any => rfl
  | union hunion => simp [hitems] at hunion

/-- A sequence allows a missing position if it is a union with an alternative that does. -/
theorem allowsMissing_iff_of_items? {items : List Value} (hitems : schema.items? = some items) :
    AllowsMissing schema ↔
      ∃ alternatives, items = .string "or" :: alternatives ∧
        ∃ alternative ∈ alternatives, AllowsMissing alternative := by
  constructor
  · intro h
    cases h with
    | any => cases hitems
    | union hunion mem allows =>
      exact ⟨_, Option.some.inj (hitems.symm.trans hunion), _, mem, allows⟩
  · rintro ⟨alternatives, rfl, alternative, hmem, hallows⟩
    exact .union hitems hmem hallows

/-- Of the sequences only unions allow a missing position. -/
theorem AllowsMissing.form_eq_union (h : AllowsMissing schema) {items : List Value}
    (hitems : schema.items? = some items) : form items = .union := by
  obtain ⟨alternatives, halternatives, -⟩ := (allowsMissing_iff_of_items? hitems).1 h
  exact form_eq_union_iff.2 ⟨alternatives, halternatives⟩

/-! ## Verdicts -/

/-- The verdicts on a missing position, which is allowed under the given condition. -/
inductive MissingVerdict (allowed : Prop) : Verdict → Prop where
  /-- No room was left. -/
  | tooDeep {verdict : Verdict} (h : verdict.TooDeep) : MissingVerdict allowed verdict
  /-- It is allowed, and nothing is wrong. -/
  | allowed (h : allowed) : MissingVerdict allowed .conforms
  /-- It is not allowed, and what is wrong is wrong there. -/
  | refused {p : Problem} (h : ¬allowed) (hcode : p.code ∈ ReasonCode.ofMissing) :
    MissingVerdict allowed (.violates ⟨[], p⟩)

namespace MissingVerdict

variable {allowed allowed' : Prop}

/-- Conditions that are equivalent can stand for each other. -/
theorem congr {verdict : Verdict} (hallowed : allowed ↔ allowed')
    (h : MissingVerdict allowed verdict) : MissingVerdict allowed' verdict :=
  propext hallowed ▸ h

/-- If there was room then either it is allowed or it is refused. -/
theorem cases_of_not_tooDeep {verdict : Verdict} (h : MissingVerdict allowed verdict)
    (hdeep : ¬verdict.TooDeep) :
    (allowed ∧ verdict = .conforms) ∨
      (¬allowed ∧ ∃ p : Problem, p.code ∈ ReasonCode.ofMissing ∧ verdict = .violates ⟨[], p⟩) := by
  cases h with
  | tooDeep h => exact absurd h hdeep
  | allowed h => exact .inl ⟨h, rfl⟩
  | refused h hcode => exact .inr ⟨h, _, hcode, rfl⟩

/-- Of two verdicts, one instead of the other, one has to allow it. -/
theorem orElse {verdict other : Verdict} (h : MissingVerdict allowed verdict)
    (hother : MissingVerdict allowed' other) :
    MissingVerdict (allowed ∨ allowed') (verdict.orElse other) := by
  by_cases hrejects : verdict.Rejects
  · rw [Verdict.orElse_of_rejects hrejects]
    obtain ⟨w, rfl, hroom⟩ := hrejects
    -- The first verdict refuses, and all depends on the second.
    cases h with
    | tooDeep h => exact absurd h (Verdict.violates_not_tooDeep hroom)
    | refused hrefuses _ => exact hother.congr (or_iff_right hrefuses).symm
  · rw [Verdict.orElse_of_not_rejects hrejects]
    cases h with
    | tooDeep h => exact .tooDeep h
    | allowed h => exact .allowed (.inl h)
    | @refused p _ hcode =>
      refine absurd ⟨_, rfl, fun hp => ?_⟩ hrejects
      rw [show p = .tooDeep from hp] at hcode
      exact absurd hcode (by decide)

/-- Of the alternatives of a union one has to allow it. -/
theorem attempt {nodes : List Node} {alternatives : List Value}
    (h : ∀ alternative ∈ alternatives,
      MissingVerdict (AllowsMissing alternative)
        (run strict alternative (room - 1) .missing).verdict) :
    MissingVerdict (∃ alternative ∈ alternatives, AllowsMissing alternative)
      (Checker.attempt nodes room .missing (alternatives.map (node strict))).verdict := by
  induction alternatives with
  | nil => exact .refused (by simp) (by simp [Checker.unionProblem, Problem.code,
      ReasonCode.ofMissing])
  | cons alternative rest ih =>
    rw [List.forall_mem_cons] at h
    rw [List.map_cons, Checker.attempt, Run.orElse_verdict]
    exact (orElse h.1 (ih h.2)).congr (by simp)

/-- A problem with one of the codes refuses what is not allowed. -/
theorem problem {p : Problem} (h : ¬allowed) (hcode : p.code ∈ ReasonCode.ofMissing) :
    MissingVerdict allowed (Run.problem p).verdict := .refused h hcode

/-- The verdict of a node that is no container. -/
theorem scalar (hitems : schema.items? = none) :
    MissingVerdict (AllowsMissing schema) (Checker.scalar schema room .missing).verdict := by
  have hinvalid (hany : schema ≠ .string Tag.any.text) : MissingVerdict (AllowsMissing schema)
      (Run.problem (.invalidNode schema.render)).verdict :=
    problem (fun h => hany (h.eq_any hitems)) (by simp [Problem.code, ReasonCode.ofMissing])
  unfold Checker.scalar
  split
  · rename_i s
    cases htag : Tag.ofText? s with
    | none =>
      refine hinvalid fun hany => ?_
      rw [Value.string.inj hany] at htag
      cases htag
    | some t =>
      obtain rfl := (Tag.ofText?_eq_some_iff s t).1 htag
      dsimp only
      split
      · rename_i haccepts
        obtain rfl := Checker.tagAccepts_missing_iff.1 haccepts
        exact .allowed .any
      · rename_i hother
        refine problem (fun h => hother ?_) (by simp [Problem.code, ReasonCode.ofMissing])
        -- Only one tag has the spelling of the tag of all values.
        have hspelling := Value.string.inj (h.eq_any hitems)
        rw [hspelling] at htag
        exact Checker.tagAccepts_missing_iff.2 (Option.some.inj htag).symm
  · rename_i hstring
    exact hinvalid fun hany => hstring _ hany

/-- The verdict of a sequence whose alternatives, if it is a union, have theirs. -/
theorem sequence {items : List Value} (hitems : schema.items? = some items)
    (hmember : NoMissingMember schema)
    (h : ∀ alternatives, items = .string "or" :: alternatives → ∀ alternative ∈ alternatives,
      MissingVerdict (AllowsMissing alternative)
        (run strict alternative (room - 1) .missing).verdict) :
    MissingVerdict (AllowsMissing schema)
      (Checker.sequence items (items.map (node strict)) room .missing).verdict := by
  cases hform : form items with
  | enumeration =>
    obtain ⟨members, rfl⟩ := form_eq_enumeration_iff.1 hform
    rw [Checker.sequence_enumeration, Checker.enumeration]
    split
    · rename_i hany
      obtain ⟨member, hmem, hsame⟩ := List.any_eq_true.1 hany
      rw [Value.eq_missing_of_same hsame] at hmem
      exact absurd hmem (hmember members hitems)
    · exact problem (fun h => by simp [h.form_eq_union hitems] at hform)
        (by simp [Problem.code, ReasonCode.ofMissing])
  | union =>
    obtain ⟨alternatives, rfl⟩ := form_eq_union_iff.1 hform
    rw [Checker.sequence_union, Checker.union]
    refine (attempt (h alternatives rfl)).congr ?_
    rw [allowsMissing_iff_of_items? hitems]
    simp
  | array =>
    rw [Checker.sequence_array hform]
    exact problem (fun h => by simp [h.form_eq_union hitems] at hform)
      (by simp [Problem.code, ReasonCode.ofMissing])

end MissingVerdict

/-- The verdict of a schema on a missing position. -/
theorem run_missing (h : EveryNode NoMissingMember schema) :
    MissingVerdict (AllowsMissing schema) (run strict schema room .missing).verdict := by
  induction schema using induct_children generalizing room with
  | step schema ih =>
    by_cases hroom : room < 0
    · rw [run_of_neg strict schema hroom]
      exact .tooDeep ⟨_, rfl, rfl⟩
    · rcases kinds schema with ⟨items, hitems⟩ | ⟨entries, rfl⟩ | ⟨hitems, hentries⟩
      · -- Only a union passes the marker on, and to its alternatives.
        rw [run_of_items? strict room .missing hitems, if_neg hroom]
        refine .sequence hitems h.root fun alternatives halternatives alternative hmem => ?_
        have hchild : alternative ∈ children schema := by
          rw [children_of_items? hitems, halternatives]
          exact hmem
        exact ih alternative hchild (h.child hchild)
      · rw [run_object, if_neg hroom]
        refine .problem (fun h => ?_) (by simp [Problem.code, ReasonCode.ofMissing])
        cases h.eq_any rfl
      · rw [run_scalar strict room .missing hitems hentries, if_neg hroom]
        exact .scalar hitems

/-! ## Answers -/

/-- The run of an array without elements against an array schema with a lone node. -/
theorem run_lone_node {t v : Value} (hform : form [t] = .array)
    (hschema : schema.items? = some [t]) (hv : v.items? = some []) :
    run strict schema room v =
      if room < 0 then .tooDeep else (run strict t (room - 1) .missing).under (.index 0) := by
  rw [run_of_items? strict room v hschema, Checker.sequence_array hform, Checker.array, hv]
  rfl

/-- **Where nothing is, only the tag of all values asks for nothing.** An array without elements is
held against an array schema with a lone node, no enumeration of which has the marker of a missing
position as a member. If there is room enough then no fault breaks this off. There is nothing to
tell exactly when the node is the tag of all values, or a union one of whose alternatives is again
such a node; and what is told of any other node has the path of the first position, and one of four
codes. -/
theorem check_missing_position {v t : Value} {start : String} {limit : Int}
    (ht : EveryNode NoMissingMember t) (henum : t ≠ .string "enum") (hor : t ≠ .string "or")
    (hschema : schema.items? = some [t]) (hv : v.items? = some [])
    (hroom : ¬(check strict schema start limit v).HasCode .maxDepthExceeded) :
    (∀ f, check strict schema start limit v ≠ .fault f) ∧
      (check strict schema start limit v = .nothing ↔ AllowsMissing t) ∧
      (¬AllowsMissing t →
        ∃ r, check strict schema start limit v = .report r ∧
          r.path = .string (indexPath start 0) ∧
          ∃ c ∈ [ReasonCode.typeMismatch, .unionMismatch, .enumMismatch, .invalidSchema],
            r.code = .string c.text) := by
  have hform : form [t] = .array := by
    cases hform : form [t] with
    | enumeration =>
      obtain ⟨members, hitems⟩ := form_eq_enumeration_iff.1 hform
      exact absurd (List.cons.inj hitems).1 henum
    | union =>
      obtain ⟨alternatives, hitems⟩ := form_eq_union_iff.1 hform
      exact absurd (List.cons.inj hitems).1 hor
    | array => rfl
  rw [check, Verdict.answer_hasCode_maxDepthExceeded_iff, run_lone_node hform hschema hv] at hroom
  rw [check, run_lone_node hform hschema hv]
  split at hroom
  · exact absurd ⟨_, rfl, rfl⟩ hroom
  · rename_i hlimit
    rw [if_neg hlimit]
    have hmissing : MissingVerdict (AllowsMissing t) (run strict t (limit - 1) .missing).verdict :=
      run_missing ht
    rcases hmissing.cases_of_not_tooDeep fun h => hroom (h.under _) with
      ⟨hallows, hconforms⟩ | ⟨hrefuses, p, hcode, hviolates⟩
    · rw [Run.under, hconforms]
      refine ⟨fun f hf => ?_, iff_of_true rfl hallows, absurd hallows⟩
      cases hf
    · rw [Run.under, hviolates]
      refine ⟨fun f hf => ?_, iff_of_false (fun hnothing => ?_) hrefuses,
        fun _ => ⟨_, rfl, rfl, p.code, hcode, rfl⟩⟩
      · cases hf
      · cases hnothing

/-- The tag of all values takes the position if another alternative does not, and another tag does
not. -/
theorem check_missing_position_union :
    (EveryNode NoMissingMember (.list [.string "or", .list [.string "enum", .null],
        .string "any"]) ∧
      EveryNode NoMissingMember (.list [.string "or", .list [.string "enum", .null],
        .string "string"])) ∧
      check true (.list [.list [.string "or", .list [.string "enum", .null], .string "any"]]) "$" 2
        (.tuple []) = .nothing ∧
      AllowsMissing (.list [.string "or", .list [.string "enum", .null], .string "any"]) ∧
      check true (.list [.list [.string "or", .list [.string "enum", .null], .string "string"]]) "$"
          2 (.tuple []) =
        .report ⟨"'$[0]': expected type 'enum(null) | string', got 'undefined'",
          .string "union_mismatch", .string "$[0]", []⟩ ∧
      ¬AllowsMissing (.list [.string "or", .list [.string "enum", .null], .string "string"]) := by
  have hnodes (last : String) : EveryNode NoMissingMember
      (.list [.string "or", .list [.string "enum", .null], .string last]) := by
    refine everyNode_of_children (by simp [NoMissingMember, Value.items?]) fun child hchild => ?_
    rcases List.mem_cons.1 hchild with rfl | hchild
    · exact everyNode_of_children (by simp [NoMissingMember, Value.items?]) fun leaf hleaf =>
        absurd hleaf List.not_mem_nil
    · obtain rfl := List.mem_singleton.1 hchild
      exact everyNode_of_children (by simp [NoMissingMember, Value.items?]) fun leaf hleaf =>
        absurd hleaf List.not_mem_nil
  have hallowed : check true (.list [.list [.string "or", .list [.string "enum", .null],
      .string "any"]]) "$" 2 (.tuple []) = .nothing := rfl
  have hrefused : check true (.list [.list [.string "or", .list [.string "enum", .null],
      .string "string"]]) "$" 2 (.tuple []) =
    .report ⟨"'$[0]': expected type 'enum(null) | string', got 'undefined'",
      .string "union_mismatch", .string "$[0]", []⟩ := rfl
  have hroom : ¬(check true (.list [.list [.string "or", .list [.string "enum", .null],
      .string "any"]]) "$" 2 (.tuple [])).HasCode .maxDepthExceeded := by
    rintro ⟨r, hr, -⟩
    cases hallowed.symm.trans hr
  have hroom' : ¬(check true (.list [.list [.string "or", .list [.string "enum", .null],
      .string "string"]]) "$" 2 (.tuple [])).HasCode .maxDepthExceeded := by
    rintro ⟨r, hr, hcode⟩
    obtain rfl := Answer.report.inj (hrefused.symm.trans hr)
    exact absurd (Value.string.inj hcode) (by decide)
  obtain ⟨-, hany, -⟩ :=
    check_missing_position (hnodes "any") (by simp) (by simp) rfl rfl hroom
  obtain ⟨-, hstring, -⟩ :=
    check_missing_position (hnodes "string") (by simp) (by simp) rfl rfl hroom'
  refine ⟨⟨hnodes "any", hnodes "string"⟩, hallowed, hany.1 hallowed, hrefused, fun hallows => ?_⟩
  cases hrefused.symm.trans (hstring.2 hallows)

/-- An enumeration that has the marker as a member takes it, and allows a missing position too. -/
example : check true (.list [.list [.string "enum", .missing]]) "$" 2 (.list []) = .nothing := rfl

end Schema

end ShapeSchema
