import ShapeSchema.Proofs.Conformance.Parts

/-!
# What a run finds wrong

Whatever a run finds wrong is the fault of the data or of a node of the schema (`run_accounts`). A
schema that an audit has accepted has no node to blame, so that a check against it can only find
fault with the data (`check_of_checkSchema_eq_nothing`).

The proof separates the ways in which runs are put together from what is claimed of them:
`Verdict.Closed` says what a property of verdicts needs in order to pass from the runs of the
children of a node to the run of the node, and `Verdict.Closed.run` passes it on. Both walks through
a schema visit its children, so that nothing a check can meet has been passed over by the audit.
-/

namespace ShapeSchema

/-- The codes of the problems that lie in the data. -/
def ReasonCode.ofData : List ReasonCode :=
  [.missingRequiredKey, .unrecognizedKey, .typeMismatch, .enumMismatch, .unionMismatch,
    .tooFewElements, .invalidNumberOfElements, .expectedEmptyArray]

/-- A property of verdicts that holds where nothing is wrong or the data are, wherever the verdict
is seen from. -/
structure Verdict.Closed (P : Verdict → Prop) : Prop extends Verdict.Mobile P where
  /-- It holds of the problems of the data. -/
  data : ∀ v : Violation, v.problem.code ∈ ReasonCode.ofData → P (.violates v)

namespace Verdict.Closed

variable {P : Verdict → Prop} (hP : Verdict.Closed P)
include hP

/-- It holds of an enumeration. -/
theorem enumeration (members : List Value) (room : Int) (v : Value) :
    P (Checker.enumeration members room v).verdict := by
  unfold Checker.enumeration
  split
  · exact hP.conforms
  · exact hP.data _ (by simp [Problem.code, ReasonCode.ofData])

/-- It holds of a union when it holds of the alternatives. -/
theorem attempt {alternatives nodes : List Node} {room : Int} {v : Value}
    (h : ∀ node ∈ nodes, P (node.check (room - 1) v).verdict) :
    P (Checker.attempt alternatives room v nodes).verdict := by
  induction nodes with
  | nil => exact hP.data _ (by simp [Checker.unionProblem, Problem.code, ReasonCode.ofData])
  | cons node rest ih =>
    exact Verdict.Mobile.orElse (h node List.mem_cons_self)
      (ih fun n hn => h n (List.mem_cons_of_mem node hn))

/-- It holds of the end of an array when it holds of the nodes there, of which a mark is none. -/
theorem arrayEnd {strict : Bool} {room : Int} {start : Nat} {schema last : Value}
    {items : List Value} (hschema : ∀ w, P (Schema.run strict schema (room - 1) w).verdict)
    (hlast : Repetition.ofValue? last = none →
      ∀ w, P (Schema.run strict last (room - 1) w).verdict) :
    P (Checker.arrayEnd room start (Schema.node strict schema) (Schema.node strict last)
      items).verdict := by
  unfold Checker.arrayEnd
  split
  · split
    · exact hP.data _ (by simp [Problem.code, ReasonCode.ofData])
    · exact hP.repeated fun w _ => hschema w
  · exact hP.repeated fun w _ => hschema w
  · rename_i hmark
    split
    · exact hP.data _ (by simp [Problem.code, ReasonCode.ofData])
    · split
      · exact hP.data _ (by simp [Problem.code, ReasonCode.ofData])
      · refine hP.positions [schema, last] items fun p hp => ?_
        rcases (by simpa using (List.of_mem_zip hp).1 : p.1 = schema ∨ p.1 = last) with h | h
        · rw [h]
          exact hschema p.2
        · rw [h]
          exact hlast hmark p.2

/-- It holds of elements when it holds of the nodes of the array schema. -/
theorem elements {strict : Bool} {room : Int} {schemas items : List Value}
    (h : ∀ child ∈ Schema.arrayNodes schemas, ∀ w,
      P (Schema.run strict child (room - 1) w).verdict) :
    P (Checker.elements room (schemas.map (Schema.node strict)) items).verdict := by
  rcases exists_append_pair schemas with rfl | ⟨schema, rfl⟩ | ⟨lead, schema, last, rfl⟩
  · -- No nodes, and maybe elements.
    rw [List.map_nil, Checker.elements]
    dsimp only [List.reverse_nil]
    split
    · exact hP.conforms
    · exact hP.data _ (by simp [Problem.code, ReasonCode.ofData])
  · -- A lone node is never a mark.
    exact hP.under _ (h schema (by simp [Schema.arrayNodes, Schema.endsInMark]) _)
  · -- Of two nodes at least the last one may be a mark, and then it is no child.
    rw [Schema.arrayNodes_append_pair] at h
    rw [List.map_append, List.map_cons, List.map_cons, List.map_nil,
      Checker.elements_append_pair]
    split
    · exact hP.data _ (by simp [Problem.code, ReasonCode.ofData])
    · refine Verdict.Mobile.andThen (hP.positions lead items fun p hp => ?_)
        (hP.arrayEnd (fun w => ?_) fun hmark w => ?_)
      · exact h p.1 (by split <;> simp [(List.of_mem_zip hp).1]) p.2
      · exact h schema (by split <;> simp) w
      · exact h last (by simp [hmark]) w

/-- It holds of an entry of the data when it holds of the children of the object schema. -/
theorem entry {strict refuses : Bool} {schema : List (Value × Value)} {room : Int}
    {e : Value × Value}
    (h : ∀ child ∈ Schema.children (.object schema), ∀ w,
      P (Schema.run strict child (room - 1) w).verdict) :
    P (Checker.entry refuses (schema.map fun e => (e.1, Schema.node strict e.2)) room
      e).verdict := by
  rw [Checker.entry_fields]
  cases hgoverning : Schema.governing? Value.isNull schema e.1 with
  | some child => exact hP.under _ (h child (Schema.governing?_mem_children hgoverning) _)
  | none =>
    cases refuses
    · exact hP.conforms
    · exact hP.data _ (by simp [Problem.code, ReasonCode.ofData])

/-- It holds of data held against an object schema when it holds of the children of the schema, if
the schema is to blame where it is unsound. -/
theorem entries {strict : Bool} {schema : List (Value × Value)} {room : Int}
    {data : List (Value × Value)}
    (hunsound : Schema.objectVerdict schema ≠ .conforms → P (Schema.objectVerdict schema))
    (h : ∀ child ∈ Schema.children (.object schema), ∀ w,
      P (Schema.run strict child (room - 1) w).verdict) :
    P (Checker.entries strict schema (schema.map fun e => (e.1, Schema.node strict e.2)) room
      data).verdict := by
  rcases Checker.entries_cases strict schema _ room data with
    ⟨-, hverdict, hrun⟩ | ⟨-, name, -, -, hrun⟩ | ⟨-, -, hrun⟩
  · rw [hrun]
    exact hunsound hverdict
  · rw [hrun]
    exact hP.data _ (by simp [Problem.code, ReasonCode.ofData])
  · rw [hrun]
    exact hP.forEach fun e _ => hP.entry h

/-- It holds of the run of a node when it holds of the runs of its children, if it holds where no
room is left and where the node is unsound. -/
theorem run {strict : Bool} {schema : Value} {room : Int} {v : Value}
    (hdeep : room < 0 → P (.problem .tooDeep))
    (hunsound : Schema.nodeVerdict schema ≠ .conforms → P (Schema.nodeVerdict schema))
    (h : ∀ child ∈ Schema.children schema, ∀ w,
      P (Schema.run strict child (room - 1) w).verdict) :
    P (Schema.run strict schema room v).verdict := by
  rcases Schema.kinds schema with ⟨items, hitems⟩ | ⟨entries, rfl⟩ | ⟨hitems, hentries⟩
  · rw [Schema.run_of_items? strict room v hitems]
    rw [Schema.children_of_items? hitems] at h
    split
    · exact hdeep ‹_›
    · cases hform : Schema.form items with
      | enumeration =>
        obtain ⟨members, rfl⟩ := Schema.form_eq_enumeration_iff.1 hform
        exact hP.enumeration members room v
      | union =>
        obtain ⟨alternatives, rfl⟩ := Schema.form_eq_union_iff.1 hform
        rw [Checker.sequence_union]
        refine hP.attempt fun n hn => ?_
        obtain ⟨child, hchild, rfl⟩ := List.mem_map.1 hn
        exact h child hchild v
      | array =>
        rw [Schema.sequenceNodes_array hform] at h
        rw [Checker.sequence_array hform, Checker.array]
        split
        · exact hP.elements h
        · exact hP.data _ (by simp [Problem.code, ReasonCode.ofData])
  · rw [Schema.run_object]
    split
    · exact hdeep ‹_›
    · -- The schema is read only if the data are an object.
      unfold Checker.object
      split
      · exact hP.entries hunsound h
      · exact hP.data _ (by simp [Problem.code, ReasonCode.ofData])
  · rw [Schema.run_scalar strict room v hitems hentries]
    split
    · exact hdeep ‹_›
    · rcases Checker.scalar_cases room v hitems hentries with ⟨t, -, hrun⟩ | ⟨-, hverdict, hrun⟩
      · rw [hrun]
        split
        · exact hP.conforms
        · exact hP.data _ (by simp [Problem.code, ReasonCode.ofData])
      · rw [hrun]
        exact hunsound hverdict

end Verdict.Closed

namespace Schema

/-- The verdict finds nothing wrong, or it is the fault of the data, or of a node of the schema. -/
def Accounts (schema : Value) (room : Int) (verdict : Verdict) : Prop :=
  verdict = .conforms ∨ (∃ v, verdict = .violates v ∧ v.problem.code ∈ ReasonCode.ofData) ∨
    Blames schema room verdict

/-- Such an account is given wherever the verdict is seen from, and of the problems of the data. -/
theorem closed_accounts (schema : Value) (room : Int) : Verdict.Closed (Accounts schema room) where
  conforms := .inl rfl
  data v hcode := .inr (.inl ⟨v, rfl, hcode⟩)
  under s verdict h := by
    rcases h with rfl | ⟨v, rfl, hcode⟩ | hblames
    · exact .inl rfl
    · exact .inr (.inl ⟨v.under s, rfl, hcode⟩)
    · exact .inr (.inr (hblames.under s))

/-- An account of a child is one of the whole schema. -/
theorem Accounts.parent {schema child : Value} {room : Int} {verdict : Verdict}
    (hchild : child ∈ children schema) (h : Accounts child (room - 1) verdict) :
    Accounts schema room verdict := by
  rcases h with h | h | h
  · exact .inl h
  · exact .inr (.inl h)
  · exact .inr (.inr (h.parent hchild))

/-- What a run finds wrong is the fault of the data or of a node of the schema. -/
theorem run_accounts (strict : Bool) (schema : Value) (room : Int) (v : Value) :
    Accounts schema room (run strict schema room v).verdict := by
  -- The parts of a value are held against the children of its schema, so that the statement is
  -- needed of the children for all values and for one level less of room.
  induction schema using induct_children generalizing room v with
  | step schema ih =>
    refine (closed_accounts schema room).run (fun hroom => ?_) (fun hunsound => ?_)
      fun child hchild w => (ih child hchild _ w).parent hchild
    · exact .inr (.inr (.depth rfl (.root schema) (by omega)))
    · exact .inr (.inr (nodeVerdict_blames room hunsound))

/-- A schema that is no higher than the room is not to blame for its depth, and what follows the
grammar is not to blame for anything else. -/
theorem run_of_wellFormed (strict : Bool) {schema : Value} {room : Int}
    (hschema : WellFormed schema) (hheight : (height schema : Int) ≤ room) (v : Value) :
    (run strict schema room v).verdict = .conforms ∨
      ∃ violation, (run strict schema room v).verdict = .violates violation ∧
        violation.problem.code ∈ ReasonCode.ofData := by
  rcases run_accounts strict schema room v with h | h | hblames
  · exact .inl h
  · exact .inr h
  · obtain ⟨violation, -, ⟨-, hdeep⟩ | ⟨-, hform⟩⟩ := hblames.of_textKeyed hschema.textKeyed
    · omega
    · exact absurd hschema hform

/-- **A schema that an audit accepts is sound for every check.** Whatever the value, a check with at
least as high a limit ends without a fault, and what it reports lies in the data. -/
theorem check_of_checkSchema_eq_nothing {schema : Value} {auditStart : String} {auditLimit : Int}
    (haudit : checkSchema schema auditStart auditLimit = .nothing) (strict : Bool) (start : String)
    {limit : Int} (hlimit : auditLimit ≤ limit) (v : Value) :
    check strict schema start limit v = .nothing ∨
      ∃ c ∈ ReasonCode.ofData, (check strict schema start limit v).HasCode c := by
  rw [checkSchema, Verdict.answer_eq_nothing_iff, audit_eq_conforms_iff] at haudit
  obtain ⟨hschema, hheight⟩ := haudit
  have hroom : (height schema : Int) ≤ limit := by omega
  rw [check, Verdict.answer_eq_nothing_iff]
  rcases run_of_wellFormed strict hschema hroom v with h | ⟨violation, h, hcode⟩
  · exact .inl h
  · exact .inr ⟨_, hcode, Verdict.answer_hasCode_iff.2 ⟨violation, h, rfl⟩⟩

/-- A union of two levels that an audit with room for two accepts: what no alternative takes is
reported as the fault of the data. -/
theorem check_of_audited_union :
    checkSchema
        (.list [.string "or", .string "integer", .object [(.string "a?", .string "string")]])
        "$" 2 = .nothing ∧
      (2 : Int) ≤ defaultLimit ∧
      ∃ c ∈ ReasonCode.ofData,
        (check true
          (.list [.string "or", .string "integer", .object [(.string "a?", .string "string")]])
          "$" defaultLimit (.object [(.string "a", .integer 1)])).HasCode c := by
  have haudit : checkSchema
      (.list [.string "or", .string "integer", .object [(.string "a?", .string "string")]])
      "$" 2 = .nothing := rfl
  have hlimit : (2 : Int) ≤ defaultLimit := by decide
  refine ⟨haudit, hlimit, ?_⟩
  exact (check_of_checkSchema_eq_nothing haudit true "$" hlimit
    (.object [(.string "a", .integer 1)])).resolve_left nofun

end Schema

end ShapeSchema
