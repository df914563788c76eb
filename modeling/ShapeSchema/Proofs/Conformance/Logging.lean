import ShapeSchema.Proofs.Conformance.DepthLimit
import ShapeSchema.Proofs.Conformance.SameRun

/-!
# What a log tells of the depth limit

That no room was left is noted exactly when a check ends for that reason, once and last, at the
place that the report names; every other note is of an alternative that was rejected for another
reason (`log_of_check`).

A run that keeps to this is `Run.Faithful`. Unions keep to it because an alternative that ends for
lack of room ends the union: had the union gone on, the note would not be the last one, and had it
noted the rejection of that alternative, a rejection for lack of room would be in the log.
-/

namespace ShapeSchema

/-- Either the run ends for lack of room, and has noted so last and not before, at the place where
it was; or it ends otherwise, and has noted nothing of the kind. -/
inductive Run.Faithful : Run → Prop where
  /-- The run ends for lack of room. -/
  | tooDeep {earlier : List LogEntry} {location : Location} (hlog : ∀ e ∈ earlier, e.Limitless) :
    Faithful ⟨earlier ++ [.depthLimit location], .violates ⟨location, .tooDeep⟩⟩
  /-- The run ends otherwise. -/
  | other {r : Run} (hverdict : ¬r.verdict.TooDeep) (hlog : ∀ e ∈ r.log, e.Limitless) : Faithful r

namespace Run.Faithful

variable {r : Run}

/-- A run without notes is faithful unless it ends for lack of room. -/
theorem silent {verdict : Verdict} (h : ¬verdict.TooDeep) : Faithful (.silent verdict) :=
  .other h fun _ he => absurd he List.not_mem_nil

/-- A run is faithful wherever it is seen from. -/
theorem under (s : Step) (h : Faithful r) : Faithful (r.under s) := by
  have hseen {log : List LogEntry} (hlog : ∀ e ∈ log, e.Limitless) :
      ∀ e ∈ log.map (LogEntry.under s), e.Limitless :=
    List.forall_mem_map.2 fun e he => (hlog e he).under s
  cases h with
  | @tooDeep earlier location hlog =>
    have hrun : Run.under s ⟨earlier ++ [.depthLimit location], .violates ⟨location, .tooDeep⟩⟩ =
        ⟨earlier.map (LogEntry.under s) ++ [.depthLimit (s :: location)],
          .violates ⟨s :: location, .tooDeep⟩⟩ := by
      rw [Run.under, List.map_append]
      rfl
    rw [hrun]
    exact .tooDeep (hseen hlog)
  | other hverdict hlog =>
    refine .other (fun hdeep => hverdict ?_) (hseen hlog)
    obtain ⟨v, hv, hproblem⟩ := hdeep
    cases hr : r.verdict with
    | violates w =>
      obtain rfl : w.under s = v := by simpa [Run.under, Verdict.under, hr] using hv
      exact ⟨w, rfl, hproblem⟩
    | _ => simp [Run.under, Verdict.under, hr] at hv

/-- A run is faithful behind notes that name no limit. -/
theorem after {log : List LogEntry} (hlog : ∀ e ∈ log, e.Limitless) (h : Faithful r) :
    Faithful (r.after log) := by
  cases h with
  | tooDeep hmore =>
    rw [Run.after, ← List.append_assoc]
    exact .tooDeep (List.forall_mem_append.2 ⟨hlog, hmore⟩)
  | other hverdict hmore => exact .other hverdict (List.forall_mem_append.2 ⟨hlog, hmore⟩)

/-- What a faithful run has noted names no limit, unless the run ends for lack of room. -/
theorem limitless (h : Faithful r) (hverdict : ¬r.verdict.TooDeep) : ∀ e ∈ r.log, e.Limitless := by
  cases h with
  | tooDeep => exact absurd ⟨_, rfl, rfl⟩ hverdict
  | other _ hlog => exact hlog

/-- Faithful runs one after the other are faithful. -/
theorem andThen {next : Unit → Run} (h : Faithful r) (hnext : Faithful (next ())) :
    Faithful (r.andThen next) := by
  unfold Run.andThen
  split
  · rename_i hconforms
    exact hnext.after (h.limitless (hconforms ▸ Verdict.conforms_not_tooDeep))
  · exact h

/-- Faithful runs one instead of the other are faithful. The second is made only if the first
rejects the value. -/
theorem orElse {alternative : String} {next : Unit → Run} (h : Faithful r)
    (hnext : r.verdict.Rejects → Faithful (next ())) : Faithful (r.orElse alternative next) := by
  unfold Run.orElse
  split
  · split
    · exact h
    · rename_i v hv hproblem
      have hlog := h.limitless (hv ▸ Verdict.violates_not_tooDeep hproblem)
      refine (hnext ⟨v, hv, hproblem⟩).after (List.forall_mem_append.2 ⟨hlog, fun e he => ?_⟩)
      rw [List.mem_singleton.1 he]
      exact hproblem
  · exact h

/-- To be the same and faithful passes from the parts of nodes to the nodes. -/
theorem simulation : Run.Simulation fun r r' => r = r' ∧ Faithful r where
  silent h := ⟨rfl, silent h⟩
  under s _ _ h := ⟨Run.simulation_eq.under s h.1, h.2.under s⟩
  andThen h hnext := ⟨Run.simulation_eq.andThen h.1 hnext.1, h.2.andThen hnext.2⟩
  orElse h hnext :=
    ⟨Run.simulation_eq.orElse h.1 fun hrejects => ⟨(hnext hrejects).1, (hnext hrejects).2.1⟩,
      h.2.orElse fun hrejects => (hnext hrejects).2.2⟩

end Run.Faithful

namespace Schema

/-- Every run of a value against a schema is faithful. -/
theorem run_faithful (strict : Bool) (schema : Value) (room : Int) (v : Value) :
    (run strict schema room v).Faithful := by
  have hdeep : Run.tooDeep.Faithful :=
    @Run.Faithful.tooDeep [] [] fun _ he => absurd he List.not_mem_nil
  exact (Run.Faithful.simulation.run ⟨rfl, hdeep⟩ strict schema room v).2

/-- **The log tells faithfully of the depth limit.** That no room was left is noted exactly when
this is the answer. Then it is noted once and as the last thing, and the line names the path of the
report and the limit. Every other note is of an alternative that was rejected, and none of these for
lack of room. -/
theorem log_of_check (strict : Bool) (schema : Value) (start : String) (limit : Int) (v : Value) :
    ((∃ location, .depthLimit location ∈ (run strict schema limit v).log) ↔
      (check strict schema start limit v).HasCode .maxDepthExceeded) ∧
    (∀ r, check strict schema start limit v = .report r →
      r.code = .string ReasonCode.maxDepthExceeded.text →
        ∃ (earlier : List LogEntry) (location : Location),
          (run strict schema limit v).log = earlier ++ [.depthLimit location] ∧
            (∀ other, .depthLimit other ∉ earlier) ∧
            r.path = .string (location.path start) ∧
            checkLog strict schema start limit v = earlier.map (LogEntry.text start limit) ++
              ["'" ++ location.path start ++ "': nesting depth limit " ++ toString limit ++
                " reached"]) ∧
    (∀ e ∈ (run strict schema limit v).log, (∃ location, e = .depthLimit location) ∨
      ∃ location alternative violation, e = .rejected location alternative violation ∧
        violation.problem.code ≠ .maxDepthExceeded) := by
  have hentries : ∀ e : LogEntry, e.Limitless → ∃ location alternative violation,
      e = .rejected location alternative violation ∧
        violation.problem.code ≠ .maxDepthExceeded := by
    intro e he
    cases e with
    | rejected location alternative violation =>
      refine ⟨location, alternative, violation, rfl, fun hcode => he ?_⟩
      exact Problem.code_eq_maxDepthExceeded_iff.1 hcode
    | depthLimit location => exact he.elim
  rw [check, Verdict.answer_hasCode_maxDepthExceeded_iff, checkLog]
  have hfaithful := run_faithful strict schema limit v
  generalize run strict schema limit v = r at hfaithful
  cases hfaithful with
  | @tooDeep earlier location hlog =>
    refine ⟨⟨fun _ => ⟨_, rfl, rfl⟩, fun _ => ⟨location, by simp⟩⟩, fun r hr _ => ?_,
      fun e he => ?_⟩
    · obtain rfl := Answer.report.inj hr
      refine ⟨earlier, location, rfl, fun other hother => hlog _ hother, rfl, ?_⟩
      rw [List.map_append]
      rfl
    · rcases List.mem_append.1 he with he | he
      · exact .inr (hentries e (hlog e he))
      · exact .inl ⟨location, List.mem_singleton.1 he⟩
  | other hverdict hlog =>
    refine ⟨⟨fun hnoted => ?_, fun hdeep => absurd hdeep hverdict⟩, fun r hr hcode => ?_,
      fun e he => .inr (hentries e (hlog e he))⟩
    · obtain ⟨location, hmem⟩ := hnoted
      exact (hlog _ hmem).elim
    · exact absurd (Verdict.answer_hasCode_maxDepthExceeded_iff.1 ⟨r, hr, hcode⟩) hverdict

/-- Of the union in an array the first alternative is rejected, and for the alternatives of the
second no room is left. Neither union notes a rejection after that. -/
theorem log_of_check_nested_union :
    check true (.list [.list [.string "or", .string "integer", .list [.string "or",
        .string "boolean"]]]) "$" 2 (.list [.string "x"]) =
      .report ⟨"'$[0]': maximum nesting depth of 2 exceeded", .string "max_depth_exceeded",
        .string "$[0]", []⟩ ∧
    ∃ (earlier : List LogEntry) (location : Location),
      (run true (.list [.list [.string "or", .string "integer", .list [.string "or",
        .string "boolean"]]]) 2 (.list [.string "x"])).log = earlier ++ [.depthLimit location] ∧
      (∀ other, .depthLimit other ∉ earlier) ∧ Value.string "$[0]" = .string (location.path "$") ∧
      checkLog true (.list [.list [.string "or", .string "integer", .list [.string "or",
          .string "boolean"]]]) "$" 2 (.list [.string "x"]) =
        earlier.map (LogEntry.text "$" 2) ++
          ["'" ++ location.path "$" ++ "': nesting depth limit " ++ toString (2 : Int) ++
            " reached"] :=
  ⟨rfl, (log_of_check true (.list [.list [.string "or", .string "integer", .list [.string "or",
    .string "boolean"]]]) "$" 2 (.list [.string "x"])).2.1 _ rfl rfl⟩

end Schema

end ShapeSchema
