/-!
# Lines

Line ends written in any of the three usual ways are read as a line feed, and a place in a text is
told by its line and its column.
-/

namespace ShapeSchema.Text

/-- The text behind what has been read so far in reverse, with each line end as a line feed. -/
def unifyLineEndsOnto (read : List Char) : List Char → List Char
  | [] => read.reverse
  | '\r' :: '\n' :: rest => unifyLineEndsOnto ('\n' :: read) rest
  | '\r' :: rest => unifyLineEndsOnto ('\n' :: read) rest
  | c :: rest => unifyLineEndsOnto (c :: read) rest

/-- The text with every line end, be it a carriage return, a line feed or the two together, as one
line feed. -/
def unifyLineEnds (cs : List Char) : List Char := unifyLineEndsOnto [] cs

/-- No carriage return is left. -/
theorem not_mem_unifyLineEndsOnto (read cs : List Char) (h : '\r' ∉ read) :
    '\r' ∉ unifyLineEndsOnto read cs := by
  fun_induction unifyLineEndsOnto read cs with
  | case1 read => simpa using h
  | case2 read rest ih => exact ih (by simpa using h)
  | case3 read rest _ ih => exact ih (by simpa using h)
  | case4 read c rest hpair hlone ih =>
    refine ih ?_
    have hc : c ≠ '\r' := fun e => hlone e
    simpa [Ne.symm hc] using h

/-- A place in a text, counted in characters. -/
structure Place where
  /-- The line, counted from one. -/
  line : Nat
  /-- The column in that line, counted from one. -/
  column : Nat
  /-- The number of characters before it. -/
  offset : Nat
deriving DecidableEq

/-- The place that a number of characters precede: one line feed more is one line more, and the
column starts anew behind it. -/
def placeAt (cs : List Char) (offset : Nat) : Place :=
  let before := cs.take offset
  { line := before.count '\n' + 1
    column := (before.reverse.takeWhile (· != '\n')).length + 1
    offset := offset }

/-- A place as it is quoted in a message. -/
def Place.describe (p : Place) : String :=
  "line " ++ toString p.line ++ " column " ++ toString p.column ++
    " (char " ++ toString p.offset ++ ")"

end ShapeSchema.Text
