import ShapeSchema.Conformance.Check
import ShapeSchema.Schema.Audit
import ShapeSchema.Report

/-!
# Answers

An answer is what a caller receives from a check or from an audit, with everything put into words:
nothing if there is nothing to tell, a report, or the fault that broke it off. `Schema.check` and
`Schema.checkSchema` give the answers, and `Schema.checkLog` the lines that a check logs. Only here
do the start path and the wording of the depth limit come in.
-/

namespace ShapeSchema

/-- What a caller receives. -/
inductive Answer where
  /-- There is nothing to tell. -/
  | nothing
  /-- Something is wrong. -/
  | report (r : Report)
  /-- The schema cannot be read. -/
  | fault (f : Fault)

/-- The answer is a report with the given code. -/
def Answer.HasCode (a : Answer) (c : ReasonCode) : Prop :=
  ∃ r, a = .report r ∧ r.code = .string c.text

/-- A verdict in words. -/
def Verdict.answer (start : String) (limit : Int) : Verdict → Answer
  | .conforms => .nothing
  | .violates v => .report (v.report start limit)
  | .faults f => .fault f

/-- Codes with the same spelling are the same. -/
theorem ReasonCode.text_inj {c d : ReasonCode} : c.text = d.text ↔ c = d := by
  constructor
  · intro h
    cases c <;> cases d <;> first | rfl | exact absurd h (by decide)
  · rintro rfl
    rfl

namespace Verdict

variable {start : String} {limit : Int} {verdict : Verdict}

/-- There is nothing to tell exactly when the verdict conforms. -/
theorem answer_eq_nothing_iff : verdict.answer start limit = .nothing ↔ verdict = .conforms := by
  cases verdict <;> simp [answer]

/-- The answer is a report exactly when the verdict is a violation that is so reported. -/
theorem answer_eq_report_iff {r : Report} :
    verdict.answer start limit = .report r ↔
      ∃ v, verdict = .violates v ∧ v.report start limit = r := by
  cases verdict <;> simp [answer]

/-- The code of the answer is that of the problem found. -/
theorem answer_hasCode_iff {c : ReasonCode} :
    (verdict.answer start limit).HasCode c ↔ ∃ v, verdict = .violates v ∧ v.problem.code = c := by
  cases verdict with
  | violates v => simp [answer, Answer.HasCode, Violation.report, ReasonCode.text_inj]
  | _ => simp [answer, Answer.HasCode]

end Verdict

namespace Schema

/-- The answer of a check of a value against a schema, behind a start path and under a depth
limit. -/
def check (strict : Bool) (schema : Value) (start : String) (limit : Int) (v : Value) : Answer :=
  (run strict schema limit v).verdict.answer start limit

/-- The lines that a check logs, in order. -/
def checkLog (strict : Bool) (schema : Value) (start : String) (limit : Int) (v : Value) :
    List String :=
  (run strict schema limit v).log.map (LogEntry.text start limit)

/-- The answer of an audit of a schema, behind a start path and under a depth limit. -/
def checkSchema (schema : Value) (start : String) (limit : Int) : Answer :=
  (audit schema limit).answer start limit

end Schema

end ShapeSchema
