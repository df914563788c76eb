import Mathlib.Data.List.Forall2
import ShapeSchema.Conformance.Telling
import ShapeSchema.Proofs.Conformance.DepthLimit

/-!
# The start path is only a label

A check that is started at another path tells the same, but for the path: no branch of the walk
depends on it, although keys are joined to it differently where it is empty (`check_sameBehind`).

A run leaves the path out. `Run.told` puts a run into words at a path, and it commutes with all the
ways in which runs are put together: what is seen from one step further out is told at the path one
step further in (`Run.told_under`). So the walk that carries the path with it tells what the run has
found (`Schema.tell_eq_told`, `Schema.tellAudit_eq_answer`), and the path enters only into words.
-/

namespace ShapeSchema

/-! ## Verdicts and runs in words -/

/-- Answers in order are the same if each is. -/
theorem Answer.forEach_congr {α β γ : Type} {tell : β → Answer} {tell' : γ → Answer} {f : α → β}
    {g : α → γ} {as : List α} (h : ∀ a ∈ as, tell (f a) = tell' (g a)) :
    forEach tell (as.map f) = forEach tell' (as.map g) := by
  induction as with
  | nil => rfl
  | cons a rest ih =>
    rw [List.forall_mem_cons] at h
    rw [List.map_cons, List.map_cons, forEach, forEach, h.1, ih h.2]

namespace Verdict

variable {path : String} {limit : Int}

/-- What is seen from one step further out is told at the path one step further in. -/
theorem answer_under (s : Step) (verdict : Verdict) :
    (verdict.under s).answer path limit = verdict.answer (s.extend path) limit := by
  cases verdict <;> rfl

/-- Verdicts one after the other are told one after the other. -/
theorem answer_andThen (verdict : Verdict) (next : Unit → Verdict) :
    (verdict.andThen next).answer path limit =
      (verdict.answer path limit).andThen fun _ => (next ()).answer path limit := by
  cases verdict <;> rfl

/-- Verdicts in order are told in order. -/
theorem answer_forEach {α : Type} (check : α → Verdict) (as : List α) :
    (forEach check as).answer path limit =
      Answer.forEach (fun a => (check a).answer path limit) as := by
  induction as with
  | nil => rfl
  | cons a rest ih => rw [forEach, answer_andThen, Answer.forEach, ih]

/-- A verdict is told the same behind two start paths. -/
theorem answer_sameBehind (start start' : String) (verdict : Verdict) :
    Answer.SameBehind start start' (verdict.answer start limit) (verdict.answer start' limit) := by
  cases verdict with
  | conforms => exact .nothing
  | faults f => exact .fault f
  | violates v => exact .report v.problem.code (v.problem.text limit) v.location

end Verdict

/-- A report tells of a lack of room exactly when this is the problem. -/
theorem Violation.isTooDeep_report {path : String} {limit : Int} (v : Violation) :
    (v.report path limit).isTooDeep = true ↔ v.problem = .tooDeep := by
  rw [report, Report.isTooDeep]
  simp only [beq_iff_eq, ReasonCode.text_inj, Problem.code_eq_maxDepthExceeded_iff]

/-- A run put into words at a path. -/
def Run.told (path : String) (limit : Int) (r : Run) : Told :=
  ⟨r.log.map (LogEntry.text path limit), r.verdict.answer path limit⟩

namespace Run

variable {path : String} {limit : Int}

/-- What is seen from one step further out is told at the path one step further in. -/
theorem told_under (s : Step) (r : Run) :
    (r.under s).told path limit = r.told (s.extend path) limit := by
  have hentry : LogEntry.text path limit ∘ LogEntry.under s =
      LogEntry.text (s.extend path) limit := by
    funext e
    cases e <;> rfl
  rw [told, told, under, List.map_map, hentry, Verdict.answer_under]

/-- Notes made before are told before. -/
theorem told_after (log : List LogEntry) (r : Run) :
    (r.after log).told path limit =
      (r.told path limit).after (log.map (LogEntry.text path limit)) := by
  simp [told, after, Told.after]

/-- Runs one after the other are told one after the other. -/
theorem told_andThen (r : Run) (next : Unit → Run) :
    (r.andThen next).told path limit =
      (r.told path limit).andThen fun _ => (next ()).told path limit := by
  obtain ⟨log, verdict⟩ := r
  cases verdict with
  | conforms => exact told_after log (next ())
  | _ => rfl

/-- Runs one instead of the other are told one instead of the other. -/
theorem told_orElse (r : Run) (alternative : String) (next : Unit → Run) :
    (r.orElse alternative next).told path limit =
      (r.told path limit).orElse path alternative fun _ => (next ()).told path limit := by
  obtain ⟨log, verdict⟩ := r
  cases verdict with
  | violates v =>
    by_cases hproblem : v.problem = .tooDeep
    · have horElse : orElse ⟨log, .violates v⟩ alternative next = ⟨log, .violates v⟩ :=
        if_pos hproblem
      rw [horElse]
      exact (if_pos (v.isTooDeep_report.2 hproblem)).symm
    · have horElse : orElse ⟨log, .violates v⟩ alternative next =
          (next ()).after (log ++ [.rejected [] alternative v]) := if_neg hproblem
      rw [horElse, told_after, List.map_append]
      exact (if_neg fun hdeep => hproblem (v.isTooDeep_report.1 hdeep)).symm
  | _ => rfl

/-- Runs in order are told in order. -/
theorem told_forEach {α : Type} (run : α → Run) (as : List α) :
    (forEach run as).told path limit = Told.forEach (fun a => (run a).told path limit) as := by
  induction as with
  | nil => rfl
  | cons a rest ih => rw [forEach_cons, told_andThen, Told.forEach, ih]

end Run

/-! ## Walks in step with runs -/

/-- The walk through the node tells what the node finds. -/
structure TellingNode.Tells (limit : Int) (t : TellingNode) (n : Node) : Prop where
  /-- Both are written alike. -/
  schema : t.schema = n.schema
  /-- What is told of a value at a path is the run of it in words. -/
  tell : ∀ room path v, t.tell room path v = (n.check room v).told path limit

namespace TellingNode.Tells

variable {limit room : Int} {path : String} {nodes alternatives : List Node}
  {walks attempts : List TellingNode}

/-- Walks that tell what nodes find have their labels. -/
theorem map_label_eq (h : List.Forall₂ (Tells limit) walks nodes) :
    walks.map (fun t => Schema.label t.schema) = nodes.map (fun n => Schema.label n.schema) := by
  induction h with
  | nil => rfl
  | cons hnode _ ih => rw [List.map_cons, List.map_cons, hnode.schema, ih]

/-- An attempt at alternatives in words. -/
theorem attempt {v : Value}
    (hlabels : attempts.map (fun t => Schema.label t.schema) =
      alternatives.map (fun n => Schema.label n.schema))
    (h : List.Forall₂ (Tells limit) walks nodes) :
    Teller.attempt limit attempts room path v walks =
      (Checker.attempt alternatives room v nodes).told path limit := by
  induction h with
  | nil =>
    rw [Teller.attempt, Checker.attempt, hlabels]
    rfl
  | cons hnode _ ih =>
    rw [Teller.attempt, Checker.attempt, Run.told_orElse, hnode.tell, hnode.schema, ih]

/-- Elements position by position in words. -/
theorem positions {start : Nat} {items : List Value} (h : List.Forall₂ (Tells limit) walks nodes) :
    Teller.positions room path start walks items =
      (Checker.positions room start nodes items).told path limit := by
  induction h generalizing start items with
  | nil => rfl
  | @cons t n ts ns hnode _ ih =>
    cases items with
    | nil => rfl
    | cons item items =>
      have hcons : Teller.positions room path start (t :: ts) (item :: items) =
          (t.tell (room - 1) (indexPath path start) item).andThen fun _ =>
            Teller.positions room path (start + 1) ts items := rfl
      rw [hcons, Checker.positions_cons, Run.told_andThen, ih, Node.runUnder, Run.told_under,
        hnode.tell]
      rfl

/-- One node at all positions in words. -/
theorem repeated {t : TellingNode} {n : Node} {start : Nat} {items : List Value}
    (h : t.Tells limit n) :
    Teller.repeated room path start t items =
      (Checker.repeated room start n items).told path limit := by
  induction items generalizing start with
  | nil => rfl
  | cons item items ih =>
    have hcons : Teller.repeated room path start t (item :: items) =
        (t.tell (room - 1) (indexPath path start) item).andThen fun _ =>
          Teller.repeated room path (start + 1) t items := rfl
    rw [hcons, Checker.repeated_cons, Run.told_andThen, ih, Node.runUnder, Run.told_under, h.tell]
    rfl

/-- The end of an array in words. -/
theorem arrayEnd {t final : TellingNode} {n last : Node} {start : Nat} {items : List Value}
    (h : t.Tells limit n) (hlast : final.Tells limit last) :
    Teller.arrayEnd limit room path start t final items =
      (Checker.arrayEnd room start n last items).told path limit := by
  rw [Teller.arrayEnd, Checker.arrayEnd, hlast.schema]
  cases Repetition.ofValue? last.schema with
  | some r =>
    cases r with
    | anyNumber => exact repeated h
    | atLeastOnce =>
      dsimp only
      rw [apply_ite (Run.told path limit), repeated h]
      rfl
  | none =>
    dsimp only
    rw [apply_ite (Run.told path limit), apply_ite (Run.told path limit),
      positions (.cons h (.cons hlast .nil))]
    rfl

/-- The elements of an array in words. -/
theorem elements {items : List Value} (h : List.Forall₂ (Tells limit) walks nodes) :
    Teller.elements limit room path walks items =
      (Checker.elements room nodes items).told path limit := by
  have hreverse := List.forall₂_reverse_iff.2 h
  rw [Teller.elements, Checker.elements]
  generalize walks.reverse = reversed, nodes.reverse = reversed' at hreverse
  rcases hreverse with _ | ⟨hlast, _ | ⟨hnode, hlead⟩⟩
  · dsimp only
    rw [apply_ite (Run.told path limit), apply_ite (Told.ofVerdict path limit)]
    rfl
  · exact (hlast.tell _ _ _).trans (Run.told_under (.index 0) _).symm
  · dsimp only
    rw [hlead.length_eq, apply_ite (Run.told path limit), Run.told_andThen,
      positions (List.forall₂_reverse_iff.2 hlead), arrayEnd hnode hlast]
    rfl

/-- A sequence schema in words. -/
theorem sequence {items : List Value} {v : Value} (h : List.Forall₂ (Tells limit) walks nodes) :
    Teller.sequence limit items walks room path v =
      (Checker.sequence items nodes room v).told path limit := by
  rw [Teller.sequence, Checker.sequence]
  cases Schema.form items with
  | enumeration =>
    dsimp only
    rw [Teller.enumeration, Checker.enumeration, apply_ite (Run.told path limit),
      apply_ite Run.verdict, apply_ite (Told.ofVerdict path limit)]
    rfl
  | union =>
    have hdrop := List.forall₂_drop 1 h
    exact attempt (map_label_eq hdrop) hdrop
  | array =>
    dsimp only
    rw [Teller.array, Checker.array]
    cases v.items? with
    | some items => exact elements h
    | none => rfl

end TellingNode.Tells

namespace Schema

variable {strict : Bool} {limit room : Int} {path : String}

/-- A node that is no container in words. -/
theorem tell_scalar {schema : Value} {v : Value} (hitems : schema.items? = none)
    (hentries : schema.entries? = none) :
    Teller.scalar limit schema room path v =
      (Checker.scalar schema room v).told path limit := by
  rw [Teller.scalar]
  rcases Checker.scalar_cases room v hitems hentries with ⟨t, -, hrun⟩ | ⟨-, -, hrun⟩
  · rw [hrun]
    split <;> rfl
  · rw [hrun]
    rfl

/-- An entry of the data in words. -/
theorem tell_entry {refuses : Bool} {entries : List (Value × Value)} {e : Value × Value}
    (h : ∀ e ∈ entries, (tellingNode strict limit e.2).Tells limit (node strict e.2)) :
    Teller.entry limit refuses (entries.map fun e => (e.1, tellingNode strict limit e.2)) room path
        e =
      (Checker.entry refuses (entries.map fun e => (e.1, node strict e.2)) room e).told path
        limit := by
  have hgoverning : governing? (fun t : TellingNode => t.schema.isNull)
      (entries.map fun e => (e.1, tellingNode strict limit e.2)) e.1 =
        (governing? Value.isNull entries e.1).map (tellingNode strict limit) :=
    governing?_map (tellingNode strict limit) _ entries e.1
  rw [Teller.entry, hgoverning, Checker.entry_fields]
  cases hfound : governing? Value.isNull entries e.1 with
  | some part =>
    obtain ⟨key, hmem⟩ := exists_mem_of_governing? hfound
    exact ((h _ hmem).tell _ _ _).trans (Run.told_under (.key e.1) _).symm
  | none => cases refuses <;> rfl

/-- An object schema in words. -/
theorem tell_object {entries : List (Value × Value)} {v : Value}
    (h : ∀ e ∈ entries, (tellingNode strict limit e.2).Tells limit (node strict e.2)) :
    Teller.object limit strict entries
        (entries.map fun e => (e.1, tellingNode strict limit e.2)) room path v =
      (Checker.object strict entries (entries.map fun e => (e.1, node strict e.2)) room v).told path
        limit := by
  rw [Teller.object, Checker.object]
  cases v.entries? with
  | none => rfl
  | some data =>
    dsimp only
    rw [Teller.entries, Checker.entries]
    cases objectVerdict entries with
    | conforms =>
      dsimp only
      cases requiredKeys entries with
      | error fault => rfl
      | ok required =>
        dsimp only
        cases Checker.missingKey? required data with
        | some name => rfl
        | none =>
          dsimp only
          rw [Run.told_forEach]
          exact congrArg (Told.forEach · data) (funext fun e => tell_entry h)
    | _ => rfl

/-- **The walk that carries the path tells what the run has found.** -/
theorem tell_eq_told (strict : Bool) (limit : Int) (schema : Value) (room : Int) (path : String)
    (v : Value) :
    tell strict limit schema room path v = (run strict schema room v).told path limit := by
  induction schema using induct_parts generalizing room path v with
  | sequence schema items hitems ih =>
    have hnodes : List.Forall₂ (TellingNode.Tells limit)
        (items.map (tellingNode strict limit)) (items.map (node strict)) := by
      rw [List.forall₂_map_left_iff, List.forall₂_map_right_iff, List.forall₂_same]
      exact fun part hpart => ⟨rfl, ih part hpart⟩
    have htell : tell strict limit schema room path v =
        if room < 0 then .tooDeep path limit
        else Teller.sequence limit items (items.map (tellingNode strict limit)) room path v := by
      rw [← tellingNodes_eq_map]
      rcases Value.items?_eq_some_iff.1 hitems with rfl | rfl <;> rfl
    rw [htell, run_of_items? strict room v hitems, apply_ite (Run.told path limit),
      TellingNode.Tells.sequence hnodes]
    rfl
  | object entries ih =>
    have htell : tell strict limit (.object entries) room path v =
        if room < 0 then .tooDeep path limit
        else Teller.object limit strict entries
          (entries.map fun e => (e.1, tellingNode strict limit e.2)) room path v := by
      rw [← tellingFields_eq_map]
      rfl
    rw [htell, run_object, apply_ite (Run.told path limit), tell_object fun e he => ⟨rfl, ih e he⟩]
    rfl
  | scalar schema hitems hentries =>
    have htell : tell strict limit schema room path v =
        if room < 0 then .tooDeep path limit else Teller.scalar limit schema room path v := by
      cases schema with
      | list items => simp [Value.items?] at hitems
      | tuple items => simp [Value.items?] at hitems
      | object entries => simp [Value.entries?] at hentries
      | string s => rw [tell] <;> simp
      | _ => rfl
    rw [htell, run_scalar strict room v hitems hentries, apply_ite (Run.told path limit),
      tell_scalar hitems hentries]
    rfl

/-! ## Audits in words -/

/-- The elements of an array schema in words. -/
theorem tell_auditElements {index : Nat} {nodes : List Value}
    (h : ∀ node ∈ nodes, ∀ room path,
      tellAudit limit node room path = (audit node room).answer path limit) :
    tellElements room path index (tellingAudits limit nodes) =
      (auditElements room index (audits nodes)).answer path limit := by
  induction nodes generalizing index with
  | nil => rfl
  | cons node rest ih =>
    rw [List.forall_mem_cons] at h
    have hempty : (tellingAudits limit rest).isEmpty = (audits rest).isEmpty := by
      cases rest <;> rfl
    rw [tellingAudits, audits, tellElements, auditElements, hempty,
      apply_ite (Verdict.answer path limit), Verdict.answer_andThen, Verdict.answer_under, h.1,
      ih h.2]
    rfl

/-- An entry of an object schema in words. -/
theorem tell_auditEntry {key node : Value}
    (h : ∀ room path, tellAudit limit node room path = (audit node room).answer path limit) :
    tellEntry room path (key, node, tellAudit limit node) =
      (auditEntry room (key, node, audit node)).answer path limit := by
  cases key with
  | string s =>
    rw [tellEntry, auditEntry]
    simp only [h, apply_ite (Verdict.answer path limit), Verdict.answer_under]
    rfl
  | _ =>
    unfold tellEntry auditEntry
    dsimp only
    rw [h, Verdict.answer_under]
    rfl

/-- **The audit that carries the path tells what the audit has found.** -/
theorem tellAudit_eq_answer (limit : Int) (schema : Value) (room : Int) (path : String) :
    tellAudit limit schema room path = (audit schema room).answer path limit := by
  induction schema using induct_parts generalizing room path with
  | sequence schema items hitems ih =>
    have hsequence : tellSequence items (tellingAudits limit items) room path =
        (auditSequence items (audits items) room).answer path limit := by
      rw [tellSequence, auditSequence]
      cases form items with
      | enumeration => rfl
      | union =>
        dsimp only
        rw [Verdict.answer_forEach, tellingAudits_eq_map, audits_eq_map, ← List.map_drop,
          ← List.map_drop]
        exact Answer.forEach_congr fun node hnode =>
          ih node (List.mem_of_mem_drop hnode) (room - 1) path
      | array => exact tell_auditElements ih
    rcases Value.items?_eq_some_iff.1 hitems with rfl | rfl <;>
      · rw [tellAudit, audit, hsequence, apply_ite (Verdict.answer path limit)]
  | object entries ih =>
    have hentries : Answer.forEach (tellEntry room path) (tellingEntryAudits limit entries) =
        (Verdict.forEach (auditEntry room) (entryAudits entries)).answer path limit := by
      rw [Verdict.answer_forEach, tellingEntryAudits_eq_map, entryAudits_eq_map]
      exact Answer.forEach_congr fun e he => tell_auditEntry (ih e he)
    rw [tellAudit, audit, apply_ite (Verdict.answer path limit), tellObject, auditObject,
      Verdict.answer_andThen, hentries]
  | scalar schema hitems hentries =>
    cases schema with
    | list items => simp [Value.items?] at hitems
    | tuple items => simp [Value.items?] at hitems
    | object entries => simp [Value.entries?] at hentries
    | string s => rw [tellAudit, audit, apply_ite (Verdict.answer path limit)] <;> simp
    | _ => rw [tellAudit, audit, apply_ite (Verdict.answer path limit)] <;> simp

/-! ## Answers behind two start paths -/

/-- **The start path is only a label.** Behind two start paths a check gives the same answer:
nothing in both, or one fault, or reports with one code and one wording behind the path in quotes,
whose paths one list of steps gives from the two start paths. So does an audit. Both answers are
those of the walks that carry the path with them, and so are the lines that a check logs. -/
theorem check_sameBehind (strict : Bool) (schema : Value) (limit : Int) (v : Value)
    (start start' : Option String) :
    (∀ path, tell strict limit schema limit path v =
      ⟨checkLog strict schema path limit v, check strict schema path limit v⟩) ∧
    (∀ path, tellAudit limit schema limit path = checkSchema schema path limit) ∧
    Answer.SameBehind (startPath start) (startPath start')
      (check strict schema (startPath start) limit v)
      (check strict schema (startPath start') limit v) ∧
    Answer.SameBehind (startPath start) (startPath start')
      (checkSchema schema (startPath start) limit)
      (checkSchema schema (startPath start') limit) :=
  ⟨fun path => tell_eq_told strict limit schema limit path v,
    fun path => tellAudit_eq_answer limit schema limit path,
    Verdict.answer_sameBehind _ _ _, Verdict.answer_sameBehind _ _ _⟩

end Schema

end ShapeSchema
