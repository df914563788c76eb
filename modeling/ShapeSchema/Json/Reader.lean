import ShapeSchema.Json.Strings
import ShapeSchema.Json.Numbers
import ShapeSchema.Value.Entries

/-!
# Reading a document

`Json.read` reads a text as a value, one token after the other. A `State` says what may come next,
and the containers that are open are kept in a list of frames, so that no nesting is too deep for
the reader itself. Members keep their order; a repeated name keeps its first place and takes its
last value.
-/

namespace ShapeSchema.Json

/-- An open container that waits for a value. -/
inductive Frame where
  /-- An array with the elements read so far in reverse. -/
  | element (items : List Value)
  /-- An object with the members read so far, and the name that the value is for. -/
  | member (entries : List (Value × Value)) (name : String)

/-- What may come next. -/
inductive State where
  /-- A value, or the end of an array that has just been opened. -/
  | value (frames : List Frame)
  /-- The name of a member, or the end of an object that has just been opened. -/
  | name (entries : List (Value × Value)) (frames : List Frame)
  /-- The colon behind a name. -/
  | colon (entries : List (Value × Value)) (name : String) (frames : List Frame)
  /-- A comma or the end of an array. -/
  | afterElement (items : List Value) (frames : List Frame)
  /-- A comma or the end of an object. -/
  | afterMember (entries : List (Value × Value)) (frames : List Frame)
  /-- Nothing: the value is complete. -/
  | done (v : Value)

namespace State

/-- The state behind a complete value. -/
def complete (v : Value) : List Frame → State
  | [] => .done v
  | .element items :: frames => .afterElement (v :: items) frames
  | .member entries key :: frames =>
    .afterMember (Entries.insert entries (.string key) v) frames

/-- What the end of the text means: the value, or that something is missing there. -/
def atEnd (offset : Nat) : State → Except Refusal Value
  | .value _ => .error (.malformed .expectingValue offset)
  | .name _ _ => .error (.malformed .expectingName offset)
  | .colon _ _ _ => .error (.malformed .expectingColon offset)
  | .afterElement _ _ => .error (.malformed .expectingComma offset)
  | .afterMember _ _ => .error (.malformed .expectingComma offset)
  | .done v => .ok v

end State

/-- The blanks between tokens. -/
def isSpace (c : Char) : Bool := c == ' ' || c == '\t' || c == '\n' || c == '\r'

/-- The state behind a token, or why there is none. Of `whole`, no more is left than there was. -/
abbrev Step (whole : List Char) := Except Refusal (Scanned State whole)

/-- The state behind a token of one character. -/
def moveOn (offset : Nat) (rest : List Char) (state : State) : Step rest :=
  .ok (.start state (offset + 1) rest)

/-- The state behind a bracket that opens a container. -/
def opened (limits : Limits) (container : Container) (frames : List Frame) (offset : Nat)
    (rest : List Char) : Step rest :=
  if limits.nesting ≤ frames.length then .error (.tooDeep container)
  else
    match container with
    | .array => moveOn offset rest (.value (.element [] :: frames))
    | .object => moveOn offset rest (.name [] frames)

/-- The state behind a value that is no container and no string. -/
def scalar (limits : Limits) (frames : List Frame) (offset : Nat) (c : Char) (rest : List Char) :
    Step rest :=
  match word? c rest with
  | some w =>
    match h : afterWord? w.tail rest with
    | some more =>
      .ok ⟨.complete w.value frames, offset + 1 + w.tail.length, more, by
        simp [eq_append_of_afterWord? h]⟩
    | none => .error (.malformed .expectingValue offset)
  | none =>
    match h : Numeral.scan? (c :: rest) with
    | none => .error (.malformed .expectingValue offset)
    | some (numeral, more) =>
      match numeral.value limits with
      | .error refusal => .error refusal
      | .ok v =>
        .ok ⟨.complete v frames, offset + numeral.length, more, by
          have h₁ := Numeral.length_scan? h
          have h₂ := Numeral.length_pos_of_scan? h
          simp only [List.length_cons] at h₁
          omega⟩

/-- The state behind the token that starts with a character other than a blank. -/
def State.next (limits : Limits) (offset : Nat) (c : Char) (rest : List Char) :
    State → Step rest
  | .value frames =>
    match frames, c with
    -- An array without elements has just been opened, so that it may end here.
    | .element [] :: outer, ']' => moveOn offset rest (.complete (.list []) outer)
    | frames, '[' => opened limits .array frames offset rest
    | frames, '\x7b' => opened limits .object frames offset rest
    | frames, '"' =>
      match scanString offset (.start [] (offset + 1) rest) with
      | .error refusal => .error refusal
      | .ok s => .ok ⟨.complete (.string s.value) frames, s.offset, s.rest, s.within⟩
    | frames, c => scalar limits frames offset c rest
  | .name entries frames =>
    if c = '"' then
      match scanString offset (.start [] (offset + 1) rest) with
      | .error refusal => .error refusal
      | .ok s => .ok ⟨.colon entries s.value frames, s.offset, s.rest, s.within⟩
    else if c = '\x7d' && entries.isEmpty then
      moveOn offset rest (.complete (.object []) frames)
    else .error (.malformed .expectingName offset)
  | .colon entries key frames =>
    if c = ':' then moveOn offset rest (.value (.member entries key :: frames))
    else .error (.malformed .expectingColon offset)
  | .afterElement items frames =>
    if c = ']' then moveOn offset rest (.complete (.list items.reverse) frames)
    else if c = ',' then moveOn offset rest (.value (.element items :: frames))
    else .error (.malformed .expectingComma offset)
  | .afterMember entries frames =>
    if c = '\x7d' then moveOn offset rest (.complete (.object entries) frames)
    else if c = ',' then moveOn offset rest (.name entries frames)
    else .error (.malformed .expectingComma offset)
  | .done _ => .error (.malformed .extraData offset)

/-- Reads on from a state. -/
def readFrom (limits : Limits) (state : State) (offset : Nat) (cs : List Char) :
    Except Refusal Value :=
  match cs with
  | [] => state.atEnd offset
  | c :: rest =>
    have shorter : rest.length < (c :: rest).length := Nat.lt_succ_self _
    if isSpace c then readFrom limits state (offset + 1) rest
    else
      match state.next limits offset c rest with
      | .error refusal => .error refusal
      | .ok s =>
        have : s.rest.length < (c :: rest).length := Nat.lt_of_le_of_lt s.within shorter
        readFrom limits s.value s.offset s.rest
termination_by cs.length
decreasing_by all_goals assumption

/-- The value that a text spells. -/
def read (limits : Limits) (text : List Char) : Except Refusal Value :=
  match text with
  | '\uFEFF' :: _ => .error (.malformed .byteOrderMark 0)
  | text => readFrom limits (.value []) 0 text

end ShapeSchema.Json
