import ShapeSchema.Violation
import ShapeSchema.Value.Entries

/-!
# Reports

A report is an error as callers receive it: a message, a code for programs, the path of the
offending value, and whatever else is to be told. `Report.toJson` is its form as an object, in which
a code that says nothing is left out, and `Violation.report` reports a violation.
-/

namespace ShapeSchema

/-- An error as callers receive it. -/
structure Report where
  /-- What is wrong, in words. -/
  reason : String
  /-- A code for programs. -/
  code : Value
  /-- The path of the offending value. -/
  path : Value
  /-- Anything else to be told, by name. -/
  extras : List (Value × Value)

/-- A report as an object: the reason and the path, what the extras say, and the code if it says
something. -/
def Report.toJson (r : Report) : Value :=
  let base := [(Value.string "reason", Value.string r.reason), (.string "path", r.path)]
  let told := r.extras.foldl (fun entries e => Entries.insert entries e.1 e.2) base
  .object (if r.code.isVoid then told else Entries.insert told (.string "reason_code") r.code)

/-- The report of a violation. -/
def Violation.report (start : String) (limit : Int) (v : Violation) : Report where
  reason := v.message start limit
  code := .string v.problem.code.text
  path := .string (v.path start)
  extras := []

end ShapeSchema
