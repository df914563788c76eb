import ShapeSchema.Proofs.Conformance.Account
import ShapeSchema.Proofs.Conformance.Simulation

/-!
# The depth limit

A limit of depth cuts a check off, but it never changes its answer: a check that does not end at the
limit ends in the same way, and logs the same lines, under any higher limit (`check_of_le_limit`),
and a limit that is no lower than the schema is high is never reached.

The proof goes through the relation `Run.Outlasts`: either the first run ends for lack of room, or
the second run is the same and nothing that the two have noted names a limit. It is kept by unions
because these give up when an alternative ends for lack of room, where they otherwise go on. Audits
note nothing, and `Verdict.Outlasts` is the same relation of verdicts alone.
-/

namespace ShapeSchema

/-- It is the same verdict behind any steps. -/
theorem Verdict.TooDeep.behind (steps : Location) {verdict : Verdict} (h : verdict.TooDeep) :
    (verdict.behind steps).TooDeep := by
  induction steps with
  | nil => exact h
  | cons s steps ih => exact ih.under s

/-- The first verdict is that no room was left, or else the second is the same. -/
def Verdict.Outlasts (verdict verdict' : Verdict) : Prop := verdict.TooDeep ∨ verdict' = verdict

namespace Verdict.Outlasts

variable {verdict verdict' verdict'' : Verdict}

/-- Every verdict is the same as itself. -/
theorem refl (verdict : Verdict) : Outlasts verdict verdict := .inr rfl

/-- The relation is passed on. -/
theorem trans (h : Outlasts verdict verdict') (h' : Outlasts verdict' verdict'') :
    Outlasts verdict verdict'' := by
  rcases h with hdeep | rfl
  · exact .inl hdeep
  · exact h'

/-- The relation goes along with verdicts to where they are seen from. -/
theorem under (s : Step) (h : Outlasts verdict verdict') :
    Outlasts (verdict.under s) (verdict'.under s) := by
  rcases h with hdeep | rfl
  · exact .inl (hdeep.under s)
  · exact .refl _

/-- The relation goes along with verdicts behind any steps. -/
theorem behind (steps : Location) (h : Outlasts verdict verdict') :
    Outlasts (verdict.behind steps) (verdict'.behind steps) := by
  rcases h with hdeep | rfl
  · exact .inl (hdeep.behind steps)
  · exact .refl _

/-- The relation is kept by verdicts one after the other. -/
theorem andThen {next next' : Unit → Verdict} (h : Outlasts verdict verdict')
    (hnext : Outlasts (next ()) (next' ())) :
    Outlasts (verdict.andThen next) (verdict'.andThen next') := by
  rcases h with ⟨v, rfl, hproblem⟩ | rfl
  · exact .inl ⟨v, rfl, hproblem⟩
  · cases verdict' with
    | conforms => exact hnext
    | _ => exact .refl _

/-- The relation is kept by checks in order: one that ends for lack of room ends them all. -/
theorem forEach {α : Type} {check check' : α → Verdict} {as : List α}
    (h : ∀ a ∈ as, Outlasts (check a) (check' a)) :
    Outlasts (Verdict.forEach check as) (Verdict.forEach check' as) := by
  induction as with
  | nil => exact .refl _
  | cons a rest ih =>
    exact (h a List.mem_cons_self).andThen (ih fun b hb => h b (List.mem_cons_of_mem a hb))

end Verdict.Outlasts

/-- The problem of its code is lack of room. -/
theorem Problem.code_eq_maxDepthExceeded_iff {p : Problem} :
    p.code = .maxDepthExceeded ↔ p = .tooDeep := by
  cases p <;> simp [code]

/-- The code of the answer tells the verdict. -/
theorem Verdict.answer_hasCode_maxDepthExceeded_iff {start : String} {limit : Int}
    {verdict : Verdict} :
    (verdict.answer start limit).HasCode .maxDepthExceeded ↔ verdict.TooDeep := by
  simp only [Verdict.answer_hasCode_iff, Problem.code_eq_maxDepthExceeded_iff, Verdict.TooDeep]

/-- The wording of a violation depends on the limit only where no room was left. -/
theorem Violation.message_limit {v : Violation} (h : v.problem ≠ .tooDeep) (start : String)
    (limit limit' : Int) : v.message start limit = v.message start limit' := by
  have htext : v.problem.text limit = v.problem.text limit' := by
    cases hproblem : v.problem <;> first | rfl | exact absurd hproblem h
  rw [Violation.message, Violation.message, htext]

/-- The wording of an answer depends on the limit only where no room was left. -/
theorem Verdict.answer_limit {verdict : Verdict} (h : ¬verdict.TooDeep) (start : String)
    (limit limit' : Int) : verdict.answer start limit = verdict.answer start limit' := by
  cases verdict with
  | violates v =>
    have hproblem : v.problem ≠ .tooDeep := fun hproblem => h ⟨v, rfl, hproblem⟩
    have hmessage := Violation.message_limit hproblem start limit limit'
    simp only [Verdict.answer, Violation.report, hmessage]
  | _ => rfl

/-- The note does not name the limit. -/
def LogEntry.Limitless : LogEntry → Prop
  | .rejected _ _ violation => violation.problem ≠ .tooDeep
  | .depthLimit _ => False

/-- The wording of such a note does not depend on the limit. -/
theorem LogEntry.Limitless.text_eq {e : LogEntry} (h : e.Limitless) (start : String)
    (limit limit' : Int) : e.text start limit = e.text start limit' := by
  cases e with
  | rejected location alternative violation =>
    rw [LogEntry.text, LogEntry.text, Violation.message_limit h start limit limit']
  | depthLimit location => exact h.elim

/-- Such a note names no limit wherever it is seen from. -/
theorem LogEntry.Limitless.under {e : LogEntry} (h : e.Limitless) (s : Step) :
    (e.under s).Limitless := by
  cases e with
  | rejected location alternative violation => exact h
  | depthLimit location => exact h.elim

/-- The first run ends for lack of room, or else the second is the same, and no limit is named. -/
def Run.Outlasts (r r' : Run) : Prop :=
  r.verdict.TooDeep ∨ (r' = r ∧ ∀ e ∈ r.log, e.Limitless)

namespace Run.Outlasts

variable {r r' : Run} {next next' : Unit → Run}

/-- A run without notes is the same as itself. -/
theorem silent (verdict : Verdict) : Outlasts (.silent verdict) (.silent verdict) :=
  .inr ⟨rfl, fun _ he => absurd he List.not_mem_nil⟩

/-- The relation goes along with runs to where they are seen from. -/
theorem under (s : Step) (h : Outlasts r r') : Outlasts (r.under s) (r'.under s) := by
  rcases h with hdeep | ⟨rfl, hlog⟩
  · exact .inl (hdeep.under s)
  · refine .inr ⟨rfl, fun e he => ?_⟩
    obtain ⟨e, hmem, rfl⟩ := List.mem_map.1 he
    exact (hlog e hmem).under s

/-- The relation is kept by notes in front that name no limit. -/
theorem after {log : List LogEntry} (hlog : ∀ e ∈ log, e.Limitless) (h : Outlasts r r') :
    Outlasts (r.after log) (r'.after log) := by
  rcases h with hdeep | ⟨rfl, hmore⟩
  · exact .inl hdeep
  · refine .inr ⟨rfl, fun e he => ?_⟩
    rcases List.mem_append.1 he with he | he
    · exact hlog e he
    · exact hmore e he

/-- The relation is kept by runs one after the other. -/
theorem andThen (h : Outlasts r r') (hnext : Outlasts (next ()) (next' ())) :
    Outlasts (r.andThen next) (r'.andThen next') := by
  rcases h with ⟨v, hv, hproblem⟩ | ⟨rfl, hlog⟩
  · refine .inl ?_
    rw [Run.andThen, hv]
    exact ⟨v, hv, hproblem⟩
  · rw [Run.andThen, Run.andThen]
    split
    · exact hnext.after hlog
    · exact .inr ⟨rfl, hlog⟩

/-- The relation is kept by runs one instead of the other. -/
theorem orElse {alternative alternative' : String} (h : Outlasts r r')
    (hnext : r.verdict.Rejects → alternative = alternative' ∧ Outlasts (next ()) (next' ())) :
    Outlasts (r.orElse alternative next) (r'.orElse alternative' next') := by
  rcases h with ⟨v, hv, hproblem⟩ | ⟨rfl, hlog⟩
  · -- An alternative that ends for lack of room ends the union.
    refine .inl ?_
    rw [Run.orElse, hv]
    dsimp only
    rw [if_pos hproblem]
    exact ⟨v, hv, hproblem⟩
  · rw [Run.orElse, Run.orElse]
    split
    · split
      · exact .inr ⟨rfl, hlog⟩
      · rename_i v hv hproblem
        obtain ⟨rfl, hrest⟩ := hnext ⟨v, hv, hproblem⟩
        refine hrest.after fun e he => ?_
        rcases List.mem_append.1 he with he | he
        · exact hlog e he
        · rw [List.mem_singleton.1 he]
          exact hproblem
    · exact .inr ⟨rfl, hlog⟩

/-- The relation passes from the parts of nodes to the nodes. -/
theorem simulation : Run.Simulation Outlasts where
  silent _ := silent _
  under s := under s
  andThen := andThen
  orElse := orElse

/-- The relation is kept where each run asks first whether there is room. -/
theorem guard {room room' : Int} (hroom : room ≤ room') (h : Outlasts r r') :
    Outlasts (if room < 0 then .tooDeep else r) (if room' < 0 then .tooDeep else r') := by
  by_cases hnegative : room < 0
  · rw [if_pos hnegative]
    exact .inl ⟨_, rfl, rfl⟩
  · rw [if_neg hnegative, if_neg (by omega)]
    exact h

end Run.Outlasts

namespace Schema

/-- Of two runs of a value against a schema, one with more room outlasts the other. -/
theorem run_outlasts (strict : Bool) (schema : Value) {room room' : Int} (hroom : room ≤ room')
    (v : Value) : (run strict schema room v).Outlasts (run strict schema room' v) := by
  have hR := Run.Outlasts.simulation
  -- Both amounts of room go down by one from a node to its parts, and stay in order.
  induction schema using induct_parts generalizing room room' v with
  | sequence schema items hitems ih =>
    rw [run_of_items? strict room v hitems, run_of_items? strict room' v hitems]
    refine .guard hroom (hR.sequence rfl (fun _ => rfl) fun _ => List.forall₂_same.2 fun n hn => ?_)
    obtain ⟨part, hpart, rfl⟩ := List.mem_map.1 hn
    exact ⟨fun _ _ => rfl, rfl, rfl, fun w => ih part hpart (by omega) w⟩
  | object entries ih =>
    rw [run_object, run_object]
    refine .guard hroom (hR.object rfl rfl (fun _ => rfl) fun key => ?_)
    rw [governing?_fields]
    cases hgoverning : governing? Value.isNull entries key with
    | some part =>
      obtain ⟨k, hmem⟩ := exists_mem_of_governing? hgoverning
      exact .some ⟨fun _ _ => rfl, rfl, rfl, fun w => ih _ hmem (by omega) w⟩
    | none => exact .none
  | scalar schema hitems hentries =>
    rw [run_scalar strict room v hitems hentries, run_scalar strict room' v hitems hentries]
    exact .guard hroom (hR.scalar schema v)

/-- An audit with more room ends in the same way, unless it ends for lack of room. -/
theorem audit_outlasts (schema : Value) {room room' : Int} (hroom : room ≤ room') :
    (audit schema room).Outlasts (audit schema room') := by
  induction schema using induct_children generalizing room room' with
  | step schema ih =>
    rw [audit_eq, audit_eq]
    by_cases hnegative : room < 0
    · rw [if_pos hnegative]
      exact .inl ⟨_, rfl, rfl⟩
    · rw [if_neg hnegative, if_neg (by omega)]
      refine (Verdict.Outlasts.refl _).andThen (Verdict.Outlasts.forEach fun p hp => ?_)
      have hmem : p.2 ∈ children schema := by
        rw [← childSteps_map_snd]
        exact List.mem_map_of_mem hp
      exact (ih p.2 hmem (show room - 1 ≤ room' - 1 by omega)).behind p.1

/-- A run with as much room as the schema is high does not end for lack of it. -/
theorem run_not_tooDeep (strict : Bool) {schema : Value} {room : Int}
    (hheight : (height schema : Int) ≤ room) (v : Value) :
    ¬(run strict schema room v).verdict.TooDeep := by
  rintro ⟨violation, hviolation, hproblem⟩
  -- Neither the data nor a node within the height can be to blame.
  rcases run_accounts strict schema room v with h | ⟨w, h, hcode⟩ | hblames
  · simp [hviolation] at h
  · obtain rfl : violation = w := by simpa [hviolation] using h
    simp [hproblem, Problem.code, ReasonCode.ofData] at hcode
  · rw [hviolation] at hblames
    have hhigher := hblames.lt_height hproblem
    omega

/-- **The depth limit cuts off but changes no answer.** A check or an audit that does not end at the
limit has the same answer under any higher limit, and logs the same lines; and no check ends at a
limit that is no lower than the schema is high, however deep the data are. -/
theorem check_of_le_limit (strict : Bool) (schema : Value) (start : String) {limit limit' : Int}
    (hlimit : limit ≤ limit') (v : Value) :
    (¬(check strict schema start limit v).HasCode .maxDepthExceeded →
      check strict schema start limit' v = check strict schema start limit v ∧
        checkLog strict schema start limit' v = checkLog strict schema start limit v) ∧
    (¬(checkSchema schema start limit).HasCode .maxDepthExceeded →
      checkSchema schema start limit' = checkSchema schema start limit) ∧
    ((height schema : Int) ≤ limit →
      ¬(check strict schema start limit v).HasCode .maxDepthExceeded) := by
  rw [check, check, checkLog, checkLog, checkSchema, checkSchema,
    Verdict.answer_hasCode_maxDepthExceeded_iff, Verdict.answer_hasCode_maxDepthExceeded_iff]
  refine ⟨fun hdeep => ?_, fun hdeep => ?_, fun hheight hdeep => ?_⟩
  · obtain ⟨hrun, hlog⟩ := (run_outlasts strict schema hlimit v).resolve_left hdeep
    rw [hrun]
    exact ⟨Verdict.answer_limit hdeep start limit' limit,
      List.map_congr_left fun e he => (hlog e he).text_eq start limit' limit⟩
  · rw [(audit_outlasts schema hlimit).resolve_left hdeep]
    exact Verdict.answer_limit hdeep start limit' limit
  · exact run_not_tooDeep strict hheight v hdeep

/-- A union with one level below it ends under the limit one as under the limit that applies when
the caller names none. -/
theorem check_union_of_le_limit :
    (1 : Int) ≤ defaultLimit ∧
      check true (.list [.string "or", .string "integer", .string "boolean"]) "$" defaultLimit
          (.string "x") =
        check true (.list [.string "or", .string "integer", .string "boolean"]) "$" 1
          (.string "x") ∧
      checkLog true (.list [.string "or", .string "integer", .string "boolean"]) "$" defaultLimit
          (.string "x") =
        checkLog true (.list [.string "or", .string "integer", .string "boolean"]) "$" 1
          (.string "x") := by
  have hlimit : (1 : Int) ≤ defaultLimit := by decide
  obtain ⟨hsame, -, hreach⟩ := check_of_le_limit true
    (.list [.string "or", .string "integer", .string "boolean"]) "$" hlimit (.string "x")
  exact ⟨hlimit, hsame (hreach (by decide))⟩

end Schema

end ShapeSchema
