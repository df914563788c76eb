import ShapeSchema.Violation

/-!
# Verdicts

A check ends in one of three ways: the value conforms, there is a violation, or the schema cannot
be read at all because a key of it is no text. `Verdict.andThen` goes on to a second check if the
first conforms, and `Verdict.forEach` runs checks in order up to the first that does not conform.
-/

namespace ShapeSchema

/-- Why a schema cannot be read. -/
inductive Fault where
  /-- A suffix is sought in a key that is not a text. -/
  | keyNotText (key : Value)

/-- The message of a fault. Octets have suffixes, but none that is a text. -/
def Fault.message : Fault → String
  | .keyNotText (.octets _) => "endswith first arg must be bytes or a tuple of bytes, not str"
  | .keyNotText key => "'" ++ key.typeText ++ "' object has no attribute 'endswith'"

/-- How a check ends. -/
inductive Verdict where
  /-- Nothing is wrong. -/
  | conforms
  /-- Something is wrong. -/
  | violates (v : Violation)
  /-- The schema cannot be read. -/
  | faults (f : Fault)

namespace Verdict

/-- A violation at the start of the check itself. -/
def problem (p : Problem) : Verdict := .violates ⟨[], p⟩

/-- The verdict as seen from one step further out. -/
def under (s : Step) : Verdict → Verdict
  | .conforms => .conforms
  | .violates v => .violates (v.under s)
  | .faults f => .faults f

/-- One verdict, and the next one if it conforms. -/
def andThen (verdict : Verdict) (next : Unit → Verdict) : Verdict :=
  match verdict with
  | .conforms => next ()
  | _ => verdict

/-- The first verdict in order that does not conform. -/
def forEach {α : Type} (check : α → Verdict) : List α → Verdict
  | [] => .conforms
  | a :: rest => (check a).andThen fun _ => forEach check rest

/-- Two verdicts in a row conform exactly when both do. -/
theorem andThen_eq_conforms_iff {verdict : Verdict} {next : Unit → Verdict} :
    verdict.andThen next = .conforms ↔ verdict = .conforms ∧ next () = .conforms := by
  cases verdict <;> simp [andThen]

/-- All checks conform exactly when each does. -/
theorem forEach_eq_conforms_iff {α : Type} (check : α → Verdict) (as : List α) :
    forEach check as = .conforms ↔ ∀ a ∈ as, check a = .conforms := by
  induction as with
  | nil => simp [forEach]
  | cons a rest ih => rw [forEach, andThen_eq_conforms_iff, ih, List.forall_mem_cons]

end Verdict

end ShapeSchema
