import ShapeSchema.Proofs.Conformance.FailFast
import ShapeSchema.Proofs.Conformance.Localization
import ShapeSchema.Proofs.Location

/-!
# Where the steps of a report come from

A violation that a run finds is its own, or it comes from the run of a part: `Schema.Origin` tells
the ways, and `Schema.run_origin` that there are no others. The keys among the steps of a violation
are thus keys of the data or keys that the schema declares (`Schema.exists_key_of_run_violates`).

If all of these are plain then so are the steps, and the path of a report names one position of the
data and no other (`Schema.position_of_path`).
-/

namespace ShapeSchema

variable {strict : Bool} {room : Int} {schema v : Value} {w : Violation}

/-- A violation that the elements of an array schema find lies at the array itself, or what governs
a position finds it there. -/
theorem Checker.elements_violates_cases {nodes items : List Value}
    (h : (elements room (nodes.map (Schema.node strict)) items).verdict = .violates w) :
    w.location = [] ∨ ∃ i part found, Schema.positionNode? nodes i = some part ∧
      (i < items.length ∨ i = 0 ∧ items.length = 0) ∧
      (Schema.run strict part (room - 1) (items[i]?.getD .missing)).verdict = .violates found ∧
      w = found.under (.index i) := by
  obtain ⟨count, wrong?, hcount, -, helements⟩ :=
    exists_elements_eq_forEach strict room nodes items.length
  rw [helements items rfl] at h
  by_cases hpositions : (Run.forEach (position strict room nodes items)
      (List.range count)).verdict = .conforms
  · -- All positions are in order, and it is the length that is wrong.
    rw [Run.andThen, hpositions] at h
    cases wrong? with
    | none => cases h
    | some p =>
      obtain rfl := Verdict.violates.inj h
      exact .inl rfl
  · rw [Run.andThen_of_stop hpositions] at h
    obtain ⟨i, after, part, found, hrange, -, hpart, hfound, hw⟩ :=
      exists_position_of_violates hcount h
    have hi := hcount i (by rw [← List.mem_range, hrange]; simp)
    exact .inr ⟨i, part, found, hpart, hi, hfound, hw⟩

namespace Schema

/-! ## Violations and their origin -/

/-- Where a violation comes from that the run of a value against a schema finds. -/
inductive Origin (strict : Bool) (room : Int) (schema v : Value) (w : Violation) : Prop where
  /-- It lies at the value itself. -/
  | own (hlocation : w.location = [])
  /-- It lies at a key that the object schema has. -/
  | declaration {entries : List (Value × Value)} {e : Value × Value}
    (hschema : schema = .object entries) (mem : e ∈ entries) (hlocation : w.location = [.key e.1])
  /-- It lies at a key that the object has. -/
  | entry {data : List (Value × Value)} {e : Value × Value} (hv : v = .object data)
    (mem : e ∈ data) (hlocation : w.location = [.key e.1])
  /-- An alternative finds it in the value. -/
  | alternative {child : Value} (hchild : child ∈ children schema)
    (h : (run strict child (room - 1) v).verdict = .violates w)
  /-- A child of the schema finds it in a part of the value. -/
  | part {child u : Value} {s : Step} {found : Violation} (hchild : child ∈ children schema)
    (first : v.StepsTo s u) (h : (run strict child (room - 1) u).verdict = .violates found)
    (hw : w = found.under s)

namespace Origin

/-- A problem that a run finds at its start lies at the value. -/
theorem of_problem {p : Problem} (h : (Run.problem p).verdict = .violates w) :
    Origin strict room schema v w := by
  obtain rfl := Verdict.violates.inj h
  exact .own rfl

/-- Where a violation comes from that a node finds which is no container. -/
theorem of_scalar (h : (Checker.scalar schema room v).verdict = .violates w) :
    Origin strict room schema v w := by
  unfold Checker.scalar at h
  split at h
  · split at h
    · split at h
      · cases h
      · exact of_problem h
    · exact of_problem h
  · exact of_problem h

/-- Where a violation comes from that a sequence schema finds. -/
theorem of_sequence {items : List Value} (hitems : schema.items? = some items)
    (h : (Checker.sequence items (items.map (node strict)) room v).verdict = .violates w) :
    Origin strict room schema v w := by
  have hchildren := children_of_items? hitems
  cases hform : form items with
  | enumeration =>
    rw [Checker.sequence, hform] at h
    dsimp only [Checker.enumeration] at h
    split at h
    · cases h
    · exact of_problem h
  | union =>
    obtain ⟨alternatives, rfl⟩ := form_eq_union_iff.1 hform
    rw [Checker.sequence_union] at h
    rcases Checker.attempt_violates_cases h with rfl | ⟨-, n, hn, hviolates⟩
    · exact .own rfl
    · obtain ⟨child, hchild, rfl⟩ := List.mem_map.1 hn
      exact .alternative (by rw [hchildren]; exact hchild) hviolates
  | array =>
    rw [sequenceNodes_array hform] at hchildren
    rw [Checker.sequence_array hform, Checker.array] at h
    cases hv : v.items? with
    | none =>
      rw [hv] at h
      exact of_problem h
    | some elements =>
      rw [hv] at h
      rcases Checker.elements_violates_cases h with hown | ⟨i, child, found, hnode, hi, hfound, hw⟩
      · exact .own hown
      · have hchild : child ∈ children schema := hchildren ▸ mem_arrayNodes_of_positionNode? hnode
        exact .part hchild (Value.stepsTo_position hv hi) hfound hw

/-- Where a violation comes from that an object schema finds in an object. -/
theorem of_entries {entries data : List (Value × Value)}
    (h : (Checker.entries strict entries (entries.map fun e => (e.1, node strict e.2)) room
      data).verdict = .violates w) :
    Origin strict room (.object entries) (.object data) w := by
  rcases Checker.entries_cases strict entries (entries.map fun e => (e.1, node strict e.2)) room
    data with ⟨-, -, hrun⟩ | ⟨-, name, ⟨e, he, hkey, -⟩, -, hrun⟩ | ⟨-, -, hrun⟩
  · rw [hrun] at h
    rcases objectVerdict_violates_cases h with ⟨shown, rfl⟩ | ⟨base, hbase, rfl⟩
    · exact .own rfl
    · obtain ⟨e, he, hkey⟩ := Entries.contains_string_iff.1 hbase
      exact .declaration rfl he (by rw [hkey])
  · rw [hrun] at h
    obtain rfl := Verdict.violates.inj h
    exact .declaration rfl he (by rw [hkey])
  · rw [hrun] at h
    obtain ⟨before, e, after, rfl, -, hentry⟩ := Run.exists_of_forEach_violates h
    have he : e ∈ before ++ e :: after := List.mem_append_right _ List.mem_cons_self
    rw [Checker.entry_fields] at hentry
    cases hgoverning : governing? Value.isNull entries e.1 with
    | some child =>
      rw [hgoverning] at hentry
      obtain ⟨found, hfound, hw⟩ := Run.exists_of_under_violates hentry
      exact .part (governing?_mem_children hgoverning) (.key he) hfound hw
    | none =>
      rw [hgoverning] at hentry
      dsimp only at hentry
      split at hentry
      · obtain rfl := Verdict.violates.inj hentry
        exact .entry rfl he rfl
      · cases hentry

end Origin

/-- A violation that a run finds comes from one of these. -/
theorem run_origin (h : (run strict schema room v).verdict = .violates w) :
    Origin strict room schema v w := by
  by_cases hroom : room < 0
  · rw [run_of_neg strict schema hroom v] at h
    exact .of_problem h
  · rcases kinds schema with ⟨items, hitems⟩ | ⟨entries, rfl⟩ | ⟨hitems, hentries⟩
    · rw [run_of_items? strict room v hitems, if_neg hroom] at h
      exact .of_sequence hitems h
    · rw [run_object, if_neg hroom, Checker.object] at h
      cases hv : v.entries? with
      | none =>
        rw [hv] at h
        exact .of_problem h
      | some data =>
        rw [hv] at h
        obtain rfl := Value.entries?_eq_some_iff.1 hv
        exact .of_entries h
    · rw [run_scalar strict room v hitems hentries, if_neg hroom] at h
      exact .of_scalar h

/-- A key among the steps of a violation that a run finds is a key of an object in the data, or of
an object node of the schema. -/
theorem exists_key_of_run_violates (h : (run strict schema room v).verdict = .violates w)
    {key : Value} (hkey : .key key ∈ w.location) :
    (∃ steps data, v.LeadsTo steps (.object data) ∧ ∃ e ∈ data, e.1 = key) ∨
      ∃ depth entries, NodeAt depth schema (.object entries) ∧ ∃ e ∈ entries, e.1 = key := by
  induction schema using induct_children generalizing room v w with
  | step schema ih =>
    -- Only a part adds a step to what a child has found, and an alternative adds none.
    cases run_origin h with
    | own hlocation =>
      rw [hlocation] at hkey
      cases hkey
    | @declaration entries e hschema mem hlocation =>
      rw [hlocation, List.mem_singleton] at hkey
      refine .inr ⟨0, entries, ?_, e, mem, (Step.key.inj hkey).symm⟩
      rw [hschema]
      exact .root _
    | @entry data e hv mem hlocation =>
      rw [hlocation, List.mem_singleton] at hkey
      refine .inl ⟨[], data, ?_, e, mem, (Step.key.inj hkey).symm⟩
      rw [hv]
      exact .here _
    | @alternative child hchild hviolates =>
      rcases ih child hchild hviolates hkey with hdata | ⟨depth, entries, hnode, hentry⟩
      · exact .inl hdata
      · exact .inr ⟨depth + 1, entries, .deeper hchild hnode, hentry⟩
    | @part child u s found hchild first hviolates hw =>
      subst hw
      rcases List.mem_cons.1 hkey with rfl | hkey
      · -- The key of the step itself: the value is an object that has it.
        cases first with
        | key mem => exact .inl ⟨[], _, .here _, _, mem, rfl⟩
      · rcases ih child hchild hviolates hkey with
          ⟨steps, data, hleads, hentry⟩ | ⟨depth, entries, hnode, hentry⟩
        · exact .inl ⟨s :: steps, data, .step first hleads, hentry⟩
        · exact .inr ⟨depth + 1, entries, .deeper hchild hnode, hentry⟩

/-- The steps of a violation are plain, if all keys are. -/
theorem isPlain_of_run_violates (hschema : PlainKeyed schema) (hv : v.PlainKeyed)
    (h : (run strict schema room v).verdict = .violates w) :
    ∀ s ∈ w.location, s.isPlain = true := by
  intro s hs
  cases s with
  | index i => rfl
  | key key =>
    rcases exists_key_of_run_violates h hs with
      ⟨steps, data, hleads, e, he, rfl⟩ | ⟨depth, entries, hnode, e, he, rfl⟩
    · exact hv steps data hleads e he
    · exact hschema depth entries hnode e he

/-! ## What a path tells -/

/-- **Paths are unambiguous for plain keys.** Two lists of plain steps with the same path behind the
empty one are the same. So if the keys of data and schema are plain then the path of a report tells
the position that it is about: it is the path of plain steps that the data bear out, of no other
plain steps, and of no others that lead anywhere in the data; and these lead to one part of the
data, unless an object has two keys that are alike. -/
theorem position_of_path :
    (∀ steps steps' : Location, (∀ s ∈ steps, s.isPlain = true) → (∀ s ∈ steps', s.isPlain = true) →
      steps.path "" = steps'.path "" → steps = steps') ∧
    ∀ (strict : Bool) (schema : Value) (limit : Int) (v : Value) (r : Report),
      PlainKeyed schema → v.PlainKeyed → check strict schema "" limit v = .report r →
        ∃ (code : ReasonCode) (text : String) (steps : Location),
          r.code = .string code.text ∧ r.path = .string (steps.path "") ∧
            Attested limit v code text steps ∧ (∀ s ∈ steps, s.isPlain = true) ∧
            (∀ steps' : Location, r.path = .string (steps'.path "") →
              (∀ s ∈ steps', s.isPlain = true) ∨ (∃ u, v.LeadsTo steps' u) → steps' = steps) ∧
            (v.Distinct → ∀ u u', v.LeadsTo steps u → v.LeadsTo steps u' → u = u') := by
  refine ⟨fun steps steps' => Location.path_inj, ?_⟩
  intro strict schema limit v r hschema hv hcheck
  obtain ⟨w, hverdict, rfl⟩ := Verdict.answer_eq_report_iff.1 hcheck
  have hplain : ∀ s ∈ w.location, s.isPlain = true := isPlain_of_run_violates hschema hv hverdict
  refine ⟨w.problem.code, w.problem.text limit, w.location, rfl, rfl,
    run_attestedBy strict schema limit limit v w hverdict, hplain, ?_, ?_⟩
  · intro steps' hpath hsteps'
    have hplain' : ∀ s ∈ steps', s.isPlain = true := by
      rcases hsteps' with hplain' | ⟨u, hleads⟩
      · exact hplain'
      · exact hleads.isPlain hv
    exact (Location.path_inj hplain hplain' (Value.string.inj hpath)).symm
  · intro hdistinct u u' hleads hleads'
    exact hleads.unique hdistinct hleads'

/-- The path of a report about the first position of an array without elements leads there only. -/
theorem position_of_path_first_position :
    PlainKeyed (.object [(.string "a", .list [.string "string"])]) ∧
    (Value.object [(.string "a", .list [])]).PlainKeyed ∧
    check true (.object [(.string "a", .list [.string "string"])]) "" 5
        (.object [(.string "a", .list [])]) =
      .report ⟨"'a[0]': expected type 'string', got 'undefined'", .string "type_mismatch",
        .string "a[0]", []⟩ ∧
    ∀ steps : Location, Value.string "a[0]" = .string (steps.path "") →
      (∀ s ∈ steps, s.isPlain = true) ∨
        (∃ u, (Value.object [(.string "a", .list [])]).LeadsTo steps u) →
      steps = [.key (.string "a"), .index 0] := by
  have hreport : check true (.object [(.string "a", .list [.string "string"])]) "" 5
      (.object [(.string "a", .list [])]) =
    .report ⟨"'a[0]': expected type 'string', got 'undefined'", .string "type_mismatch",
      .string "a[0]", []⟩ := rfl
  have hschema : PlainKeyed (.object [(.string "a", .list [.string "string"])]) := by
    refine plainKeyed_of_children (by simp [Value.isPlainKey]) fun child hchild => ?_
    obtain rfl := List.mem_singleton.1 hchild
    refine plainKeyed_of_children (by simp) fun child hchild => ?_
    obtain rfl := List.mem_singleton.1 hchild
    exact plainKeyed_of_children (by simp) fun child hchild => absurd hchild List.not_mem_nil
  have hdata : (Value.object [(.string "a", .list [])]).PlainKeyed :=
    Value.plainKeyed_object (by simp [Value.isPlainKey])
      (by simpa using Value.plainKeyed_of_items? rfl (by simp))
  obtain ⟨-, -, steps, -, hpath, -, hplain, htold, -⟩ :=
    position_of_path.2 true _ 5 _ _ hschema hdata hreport
  have hsteps : [.key (.string "a"), .index 0] = steps :=
    position_of_path.1 _ _ (by simp [Step.isPlain, Value.isPlainKey]) hplain
      (Value.string.inj hpath)
  exact ⟨hschema, hdata, hreport,
    fun steps' hpath hsteps' => (htold steps' hpath hsteps').trans hsteps.symm⟩

end Schema
end ShapeSchema
