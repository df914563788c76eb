import ShapeSchema.Verdict

/-!
# Runs

A run is what holding a value against a schema leaves behind: a log of what was tried on the way,
and a verdict. `Run.under` moves a run to where it took place, as seen from one step further out.
Runs follow one another in two ways. `Run.forEach` makes them in order, keeps all of the log, and
ends with the first verdict that does not conform. `Run.orElse` goes on only if the value has been
rejected, and notes the rejection.
-/

namespace ShapeSchema

/-- What a run notes on the way. -/
inductive LogEntry where
  /-- An alternative of a union did not take the value. -/
  | rejected (location : Location) (alternative : String) (violation : Violation)
  /-- No room was left. -/
  | depthLimit (location : Location)

namespace LogEntry

/-- The entry as seen from one step further out. -/
def under (s : Step) : LogEntry → LogEntry
  | .rejected location alternative violation =>
    .rejected (s :: location) alternative (violation.under s)
  | .depthLimit location => .depthLimit (s :: location)

/-- The wording of an entry behind a start path and under a depth limit. -/
def text (start : String) (limit : Int) : LogEntry → String
  | .rejected location alternative violation =>
    "'" ++ location.path start ++ "': alternative '" ++ alternative ++ "' rejected: " ++
      violation.message start limit
  | .depthLimit location =>
    "'" ++ location.path start ++ "': nesting depth limit " ++ toString limit ++ " reached"

end LogEntry

/-- The log of a check and its verdict. -/
structure Run where
  /-- What was noted, in order. -/
  log : List LogEntry
  /-- How it ended. -/
  verdict : Verdict

namespace Run

/-- A run without notes. -/
def silent (verdict : Verdict) : Run := ⟨[], verdict⟩

/-- A run that ends well without notes. -/
def conforming : Run := silent .conforms

/-- A run that finds a problem at its very start. -/
def problem (p : Problem) : Run := silent (.problem p)

/-- A run for which no room is left. -/
def tooDeep : Run := ⟨[.depthLimit []], .problem .tooDeep⟩

/-- The run as seen from one step further out. -/
def under (s : Step) (r : Run) : Run := ⟨r.log.map (LogEntry.under s), r.verdict.under s⟩

/-- The run with notes that were made before it. -/
def after (log : List LogEntry) (r : Run) : Run := ⟨log ++ r.log, r.verdict⟩

/-- One run, and the next one if it ends well. -/
def andThen (r : Run) (next : Unit → Run) : Run :=
  match r.verdict with
  | .conforms => (next ()).after r.log
  | _ => r

/-- One run, and the next one if it rejects the value, with a note of that. -/
def orElse (r : Run) (alternative : String) (next : Unit → Run) : Run :=
  match r.verdict with
  | .violates violation =>
    -- A later run may have room enough, but the answer must not depend on the limit.
    if violation.problem = .tooDeep then r
    else (next ()).after (r.log ++ [.rejected [] alternative violation])
  | _ => r

/-- Runs in order up to the first that does not end well, with the notes made before. -/
def forEachAfter {α : Type} (log : List LogEntry) (run : α → Run) : List α → Run
  | [] => ⟨log, .conforms⟩
  | a :: rest =>
    match run a with
    | ⟨more, .conforms⟩ => forEachAfter (log ++ more) run rest
    | r => r.after log

/-- Runs in order up to the first that does not end well. -/
def forEach {α : Type} (run : α → Run) (as : List α) : Run := forEachAfter [] run as

/-- Earlier notes stay in front. -/
theorem forEachAfter_eq_after {α : Type} (log : List LogEntry) (run : α → Run) (as : List α) :
    forEachAfter log run as = (forEach run as).after log := by
  suffices h : ∀ more, forEachAfter (log ++ more) run as = (forEachAfter more run as).after log by
    simpa [forEach] using h []
  induction as with
  | nil => intro more; rfl
  | cons a rest ih =>
    intro more
    simp only [forEachAfter]
    split
    · rw [List.append_assoc, ih]
    · simp [after, List.append_assoc]

/-- Making runs one after the other is making the first and then the others. -/
theorem forEach_cons {α : Type} (run : α → Run) (a : α) (rest : List α) :
    forEach run (a :: rest) = (run a).andThen fun _ => forEach run rest := by
  rw [forEach, forEachAfter]
  match run a with
  | ⟨log, .conforms⟩ => exact forEachAfter_eq_after _ run rest
  | ⟨_, .violates _⟩ => rfl
  | ⟨_, .faults _⟩ => rfl

/-- No runs are no notes and a good end. -/
theorem forEach_nil {α : Type} (run : α → Run) : forEach run [] = conforming := rfl

end Run

end ShapeSchema
