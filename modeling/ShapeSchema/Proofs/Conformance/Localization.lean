import ShapeSchema.Conformance.Attested
import ShapeSchema.Conformance.Telling
import ShapeSchema.Proofs.Conformance.Parts

/-!
# Reports are borne out by the data

The path of a report is that of some steps into the data, and what the report says is true of the
place where they lead (`report_of_check`). Where a node hands a part of a value on to a node below
it, the step that it puts in front of what comes back leads to that very part (`Attested.step`);
`Node.Attests` carries this through all forms of schema, and in a sequence the elements that are
still to be held against nodes are those from the index of the next step on.
-/

namespace ShapeSchema

variable {limit room : Int} {v : Value}

/-- What a part of a value bears out the value bears out, one step further in. -/
theorem Attested.step {u : Value} {s : Step} {code : ReasonCode} {text : String} {steps : Location}
    (first : v.StepsTo s u) (h : Attested limit u code text steps) :
    Attested limit v code text (s :: steps) := by
  cases h with
  | missingRequiredKey leads hkey => exact .missingRequiredKey (.step first leads) hkey
  | conflictingKeys leads => exact .conflictingKeys (.step first leads)
  | unrecognizedKey leads mem => exact .unrecognizedKey (.step first leads) mem
  | invalidStrictness leads => exact .invalidStrictness (.step first leads)
  | invalidNode leads => exact .invalidNode (.step first leads)
  | typeMismatch leads hkind => exact .typeMismatch (.step first leads) hkind
  | enumMismatch leads hmembers => exact .enumMismatch (.step first leads) hmembers
  | unionMismatch leads => exact .unionMismatch (.step first leads)
  | tooFewElements leads hsequence => exact .tooFewElements (.step first leads) hsequence
  | invalidNumberOfElements leads hsequence =>
    exact .invalidNumberOfElements (.step first leads) hsequence
  | expectedEmptyArray leads hsequence => exact .expectedEmptyArray (.step first leads) hsequence
  | maxDepthExceeded leads => exact .maxDepthExceeded (.step first leads)

/-- If the verdict is a violation then the value bears it out. -/
def Verdict.AttestedBy (limit : Int) (v : Value) (verdict : Verdict) : Prop :=
  ∀ w, verdict = .violates w →
    Attested limit v w.problem.code (w.problem.text limit) w.location

namespace Verdict.AttestedBy

/-- Where nothing is wrong there is nothing to bear out. -/
theorem conforms : AttestedBy limit v .conforms := nofun

/-- A fault is no violation. -/
theorem faults (f : Fault) : AttestedBy limit v (.faults f) := nofun

/-- A violation is borne out if what it reports is. -/
theorem violates {w : Violation}
    (h : Attested limit v w.problem.code (w.problem.text limit) w.location) :
    AttestedBy limit v (.violates w) := by
  rintro w' hw
  obtain rfl := Verdict.violates.inj hw
  exact h

/-- A problem at the start of a check is borne out by the value itself. -/
theorem problem {p : Problem} (h : Attested limit v p.code (p.text limit) []) :
    AttestedBy limit v (.problem p) := violates h

/-- What a part of a value bears out the value bears out where it is seen from. -/
theorem under {u : Value} {s : Step} {verdict : Verdict} (first : v.StepsTo s u)
    (h : AttestedBy limit u verdict) : AttestedBy limit v (verdict.under s) := by
  cases verdict with
  | conforms => exact conforms
  | faults f => exact faults f
  | violates violation => exact violates ((h violation rfl).step first)

end Verdict.AttestedBy

/-- Whatever value is held against the node, it bears out what the node finds. -/
def Node.Attests (limit room : Int) (n : Node) : Prop :=
  ∀ u, (n.check (room - 1) u).verdict.AttestedBy limit u

/-- A value bears out what a node finds in a part of it. -/
theorem Node.Attests.runUnder {n : Node} (h : n.Attests limit room) {s : Step} {u : Value}
    (first : v.StepsTo s u) : (n.runUnder room s u).verdict.AttestedBy limit v :=
  (h u).under first

namespace Checker

open Verdict.Mobile Verdict.AttestedBy

/-! ## Sequences -/

variable {all items : List Value} {nodes : List Node} {start : Nat}

/-- If some elements are left from an index on then the step to that index leads to the first of
them, and the others are left from the next index on. -/
theorem stepsTo_of_drop_eq_cons {item : Value} (hall : v.items? = some all)
    (hdrop : all.drop start = item :: items) :
    v.StepsTo (.index start) item ∧ all.drop (start + 1) = items := by
  refine ⟨.index hall ?_, ?_⟩
  · rw [← Nat.add_zero start, ← List.getElem?_drop, hdrop]
    rfl
  · rw [← List.drop_drop, hdrop]
    rfl

/-- A sequence bears out what its elements are found to be position by position. -/
theorem positions_attestedBy (hall : v.items? = some all) (hdrop : all.drop start = items)
    (h : ∀ n ∈ nodes, n.Attests limit room) :
    (positions room start nodes items).verdict.AttestedBy limit v := by
  induction nodes generalizing start items with
  | nil => exact conforms
  | cons n nodes ih =>
    cases items with
    | nil => exact conforms
    | cons item items =>
      obtain ⟨first, hrest⟩ := stepsTo_of_drop_eq_cons hall hdrop
      obtain ⟨hn, hnodes⟩ := List.forall_mem_cons.1 h
      rw [positions_cons]
      exact andThen (hn.runUnder first) (ih hrest hnodes)

/-- A sequence bears out what one node finds at all positions. -/
theorem repeated_attestedBy {n : Node} (hall : v.items? = some all)
    (hdrop : all.drop start = items) (h : n.Attests limit room) :
    (repeated room start n items).verdict.AttestedBy limit v := by
  induction items generalizing start with
  | nil => exact conforms
  | cons item items ih =>
    obtain ⟨first, hrest⟩ := stepsTo_of_drop_eq_cons hall hdrop
    rw [repeated_cons]
    exact andThen (h.runUnder first) (ih hrest)

/-- A sequence bears out what the last two nodes of an array schema find. -/
theorem arrayEnd_attestedBy {n last : Node} (hall : v.items? = some all)
    (hdrop : all.drop start = items) (h : n.Attests limit room) (hlast : last.Attests limit room) :
    (arrayEnd room start n last items).verdict.AttestedBy limit v := by
  have hsequence : v.isSequence = true := by rw [Value.isSequence, hall, Option.isSome_some]
  have hfew : (Run.problem .tooFewElements).verdict.AttestedBy limit v :=
    problem (.tooFewElements (.here v) hsequence)
  -- The last node may be either mark, or none.
  unfold arrayEnd
  split
  · split
    · exact hfew
    · exact repeated_attestedBy hall hdrop h
  · exact repeated_attestedBy hall hdrop h
  · split
    · exact hfew
    · split
      · exact problem (.invalidNumberOfElements (.here v) hsequence)
      · refine positions_attestedBy hall hdrop ?_
        simpa using ⟨h, hlast⟩

/-- A sequence bears out what an array schema finds. -/
theorem elements_attestedBy (hall : v.items? = some all) (h : ∀ n ∈ nodes, n.Attests limit room) :
    (elements room nodes all).verdict.AttestedBy limit v := by
  have hsequence : v.isSequence = true := by rw [Value.isSequence, hall, Option.isSome_some]
  rcases exists_append_pair nodes with rfl | ⟨n, rfl⟩ | ⟨lead, n, last, rfl⟩
  · rw [elements]
    dsimp only [List.reverse_nil]
    split
    · exact conforms
    · exact problem (.expectedEmptyArray (.here v) hsequence)
  · -- The first position is there, or else it is the one that an empty sequence lacks.
    refine (h n List.mem_cons_self).runUnder ?_
    cases all with
    | nil => exact .missing hall
    | cons item rest => exact .index hall rfl
  · rw [elements_append_pair]
    split
    · exact problem (.tooFewElements (.here v) hsequence)
    · exact andThen (positions_attestedBy hall rfl fun m hm => h m (by simp [hm]))
        (arrayEnd_attestedBy hall rfl (h n (by simp)) (h last (by simp)))

/-- A value bears out that an enumeration has no such member. -/
theorem enumeration_attestedBy (members : List Value) :
    (enumeration members room v).verdict.AttestedBy limit v := by
  unfold enumeration
  split
  · exact conforms
  · rename_i hnone
    refine problem (.enumMismatch (.here v) fun member hmember => ?_)
    rw [← Bool.not_eq_true]
    exact fun hsame => hnone (List.any_eq_true.2 ⟨member, hmember, hsame⟩)

/-- A value bears out what some alternatives find, and that none of them takes it. -/
theorem attempt_attestedBy {alternatives : List Node} (h : ∀ n ∈ nodes, n.Attests limit room) :
    (attempt alternatives room v nodes).verdict.AttestedBy limit v := by
  induction nodes with
  | nil => exact problem (.unionMismatch (.here v))
  | cons n nodes ih =>
    obtain ⟨hn, hnodes⟩ := List.forall_mem_cons.1 h
    exact orElse (hn v) (ih hnodes)

/-- What bears the name of a tag without being of its class is foreign, and the tag names no kind,
or the form of an object. -/
theorem isForeign_of_text_eq {t : Tag} (htext : t.text = v.kind.text)
    (h : tagAccepts t v = false ∨ t = .object ∧ v.entries? = none) :
    v.IsForeign t.text ∧ t.text ∈ ["array", "integer", "object"] := by
  cases v with
  | foreign x =>
    refine ⟨⟨x, rfl, htext.symm⟩, ?_⟩
    rcases h with h | ⟨rfl, -⟩
    · -- The tags that are names of kinds accept whatever bears the name.
      cases t <;> simp_all [tagAccepts, Tag.text]
    · simp [Tag.text]
  | _ =>
    cases t <;>
      simp_all [tagAccepts, Tag.text, Kind.text, Value.kind, Value.isSequence, Value.items?,
        Value.entries?]

/-- A value bears out that it is not of the class that a tag names, or that it is no object. -/
theorem typeMismatch_attestedBy {t : Tag}
    (h : tagAccepts t v = false ∨ t = .object ∧ v.entries? = none) :
    (Run.problem (.typeMismatch t v.kind.text)).verdict.AttestedBy limit v := by
  refine problem (.typeMismatch (.here v) ?_)
  by_cases htext : t.text = v.kind.text
  · exact .inr (isForeign_of_text_eq htext h)
  · exact .inl htext

/-- A value bears out what a sequence schema finds. -/
theorem sequence_attestedBy (h : ∀ n ∈ nodes, n.Attests limit room) :
    (sequence items nodes room v).verdict.AttestedBy limit v := by
  unfold sequence
  cases Schema.form items with
  | enumeration => exact enumeration_attestedBy _
  | union => exact attempt_attestedBy fun n hn => h n (List.mem_of_mem_drop hn)
  | array =>
    dsimp only
    unfold array
    split
    · exact elements_attestedBy ‹_› h
    · refine typeMismatch_attestedBy (.inl ?_)
      simp [tagAccepts, Value.isSequence, *]

/-- A value bears out what a node finds that is no container. -/
theorem scalar_attestedBy (schema : Value) :
    (scalar schema room v).verdict.AttestedBy limit v := by
  have hnode : (Run.problem (.invalidNode schema.render)).verdict.AttestedBy limit v :=
    problem (.invalidNode (.here v))
  unfold scalar
  split
  · split
    · split
      · exact conforms
      · exact typeMismatch_attestedBy (.inl (Bool.eq_false_iff.2 ‹_›))
    · exact hnode
  · exact hnode

/-! ## Objects -/

variable {strict : Bool} {schema data : List (Value × Value)}

/-- An object bears out that its schema is unsound. A field that is declared twice is looked for in
it. -/
theorem objectVerdict_attestedBy :
    (Schema.objectVerdict schema).AttestedBy limit (.object data) := by
  intro w hw
  rcases Schema.objectVerdict_violates_cases hw with ⟨shown, rfl⟩ | ⟨base, -, rfl⟩
  · exact .invalidStrictness (.here _)
  · exact .conflictingKeys (.here _)

/-- An object bears out what is found of its entries. -/
theorem entries_attestedBy
    (h : ∀ e ∈ schema, (Schema.node strict e.2).Attests limit room) :
    (entries strict schema (schema.map fun e => (e.1, Schema.node strict e.2)) room
      data).verdict.AttestedBy limit (.object data) := by
  rcases entries_cases strict schema _ room data with
    ⟨-, -, hrun⟩ | ⟨-, name, -, hmissing, hrun⟩ | ⟨-, -, hrun⟩
  · rw [hrun]
    exact objectVerdict_attestedBy
  · rw [hrun]
    exact violates (.missingRequiredKey (.here _) hmissing)
  · rw [hrun]
    refine forEach_of_conforms conforms fun e he => ?_
    rw [entry_fields]
    split
    · rename_i child hgoverning
      obtain ⟨key, hmem⟩ := Schema.exists_mem_of_governing? hgoverning
      exact (h _ hmem).runUnder (.key he)
    · split
      · exact violates (.unrecognizedKey (.here _) he)
      · exact conforms

/-- A value bears out what an object schema finds. -/
theorem object_attestedBy
    (h : ∀ e ∈ schema, (Schema.node strict e.2).Attests limit room) :
    (object strict schema (schema.map fun e => (e.1, Schema.node strict e.2)) room
      v).verdict.AttestedBy limit v := by
  unfold object
  split
  · rename_i data hdata
    obtain rfl := Value.entries?_eq_some_iff.1 hdata
    exact entries_attestedBy h
  · exact typeMismatch_attestedBy (.inr ⟨rfl, ‹_›⟩)

end Checker

namespace Schema

/-! ## Checks -/

/-- A value bears out what a schema finds in it. -/
theorem run_attestedBy (strict : Bool) (schema : Value) (limit room : Int) (v : Value) :
    (run strict schema room v).verdict.AttestedBy limit v := by
  have hdeep (v : Value) : Run.tooDeep.verdict.AttestedBy limit v :=
    .problem (.maxDepthExceeded (.here v))
  induction schema using induct_parts generalizing room v with
  | sequence schema items hitems ih =>
    rw [run_of_items? strict room v hitems]
    split
    · exact hdeep v
    · refine Checker.sequence_attestedBy fun n hn u => ?_
      obtain ⟨part, hpart, rfl⟩ := List.mem_map.1 hn
      exact ih part hpart (room - 1) u
  | object entries ih =>
    rw [run_object]
    split
    · exact hdeep v
    · exact Checker.object_attestedBy fun e he u => ih e he (room - 1) u
  | scalar schema hitems hentries =>
    rw [run_scalar strict room v hitems hentries]
    split
    · exact hdeep v
    · exact Checker.scalar_attestedBy schema

/-- **Reports are borne out by the data.** A report of a check has no extras, its path is that of
some steps behind the start path, its wording follows the path in quotes, and the value bears it
out: the steps lead to a part of the value of which code and wording are true. -/
theorem report_of_check {strict : Bool} {schema : Value} {path : Option String} {limit : Int}
    {v : Value} {r : Report} (h : check strict schema (startPath path) limit v = .report r) :
    r.extras = [] ∧ ∃ (code : ReasonCode) (text : String) (steps : Location),
      r.code = .string code.text ∧ r.path = .string (steps.path (startPath path)) ∧
        r.reason = "'" ++ steps.path (startPath path) ++ "': " ++ text ∧
        Attested limit v code text steps := by
  obtain ⟨w, hverdict, rfl⟩ := Verdict.answer_eq_report_iff.1 h
  exact ⟨rfl, w.problem.code, w.problem.text limit, w.location, rfl, rfl, rfl,
    run_attestedBy strict schema limit limit v w hverdict⟩

/-- The report of an array without elements leads to its first position, where nothing is. -/
theorem report_of_check_first_position :
    check true (.object [(.string "a", .list [.string "string"])]) (startPath (some "$")) 5
        (.object [(.string "a", .list [])]) =
      .report ⟨"'$.a[0]': expected type 'string', got 'undefined'", .string "type_mismatch",
        .string "$.a[0]", []⟩ ∧
    ∃ (code : ReasonCode) (text : String) (steps : Location),
      Value.string "type_mismatch" = .string code.text ∧
        Value.string "$.a[0]" = .string (steps.path "$") ∧
        "'$.a[0]': expected type 'string', got 'undefined'" =
          "'" ++ steps.path "$" ++ "': " ++ text ∧
        Attested 5 (.object [(.string "a", .list [])]) code text steps := by
  have hreport : check true (.object [(.string "a", .list [.string "string"])])
      (startPath (some "$")) 5 (.object [(.string "a", .list [])]) =
    .report ⟨"'$.a[0]': expected type 'string', got 'undefined'", .string "type_mismatch",
      .string "$.a[0]", []⟩ := rfl
  exact ⟨hreport, (report_of_check hreport).2⟩

/-- A foreign value is refused with the name of its own class, and without a path the path of a
report is the empty one. The steps lead to the whole value in both cases, and cannot lead
elsewhere. -/
theorem report_of_check_foreign :
    (check true (.object []) (startPath (some "")) 200
        (.foreign ⟨"object", "<object object at 0x7f1c>", "<object object at 0x7f1c>", 0⟩) =
      .report ⟨"'': expected type 'object', got 'object'", .string "type_mismatch", .string "",
        []⟩ ∧
      ∀ steps w, (Value.foreign ⟨"object", "<object object at 0x7f1c>",
        "<object object at 0x7f1c>", 0⟩).LeadsTo steps w → w.kind.text = "object") ∧
    (check true (.string "string") (startPath none) 200 (.integer 1) =
      .report ⟨"'': expected type 'string', got 'number'", .string "type_mismatch", .string "",
        []⟩ ∧
      ∀ steps w, (Value.integer 1).LeadsTo steps w → steps = []) := by
  -- No steps lead into either value.
  refine ⟨⟨rfl, fun steps w h => ?_⟩, rfl, fun steps w h => ?_⟩
  · rw [(h.of_not_isContainer rfl).2]
    rfl
  · exact (h.of_not_isContainer rfl).1

end Schema

end ShapeSchema
