import ShapeSchema.Text.Quoted

/-!
# Reading UTF-8

`Utf8.decode` reads octets as text, one octet at a time: between characters an octet starts a new
one, and inside a character the next octet must lie in the range that its predecessors leave. The
first octet that cannot go on ends the reading with the octets that are at fault, counted from the
start of the text.
-/

namespace ShapeSchema.Text.Utf8

/-- Why octets are not text. -/
inductive Cause where
  /-- An octet that starts no character. -/
  | invalidStart
  /-- A character that is broken off by an octet that cannot continue it. -/
  | invalidContinuation
  /-- A character that the end of the text breaks off. -/
  | truncated
deriving DecidableEq

/-- The wording of a cause. -/
def Cause.text : Cause → String
  | .invalidStart => "invalid start byte"
  | .invalidContinuation => "invalid continuation byte"
  | .truncated => "unexpected end of data"

/-- The octets at fault: the place of the first, its value, how many there are, and why. -/
structure Fault where
  /-- The number of octets before the first one at fault. -/
  start : Nat
  /-- The first octet at fault. -/
  octet : UInt8
  /-- How many octets are at fault. -/
  count : Nat
  /-- What is wrong with them. -/
  cause : Cause
deriving DecidableEq

/-- A fault as it is reported: a single octet is quoted, several are named by their places. -/
def Fault.message (f : Fault) : String :=
  let subject :=
    if f.count = 1 then
      "byte 0x" ++ String.ofList (hexDigits 2 f.octet.toNat) ++ " in position " ++
        toString f.start
    else
      "bytes in position " ++ toString f.start ++ "-" ++ toString (f.start + f.count - 1)
  "'utf-8' codec can't decode " ++ subject ++ ": " ++ f.cause.text

/-- A character of which some octets have been read. -/
structure Pending where
  /-- The number of octets before its first one. -/
  start : Nat
  /-- Its first octet. -/
  octet : UInt8
  /-- The bits read so far. -/
  bits : Nat
  /-- How many octets are still owed, less one. -/
  owed : Nat
  /-- The least octet that may come next. -/
  low : UInt8
  /-- The greatest octet that may come next. -/
  high : UInt8

/-- The character that an octet of two or more opens, at a place. Overlong forms, surrogates and
code points beyond the last are ruled out by the range of the second octet. -/
def opening? (start : Nat) (b : UInt8) : Option Pending :=
  let pending (bits owed : Nat) (low high : UInt8) : Option Pending :=
    some { start, octet := b, bits, owed, low, high }
  if b < 0xC2 then none
  else if b < 0xE0 then pending (b.toNat - 0xC0) 0 0x80 0xBF
  else if b = 0xE0 then pending (b.toNat - 0xE0) 1 0xA0 0xBF
  else if b = 0xED then pending (b.toNat - 0xE0) 1 0x80 0x9F
  else if b < 0xF0 then pending (b.toNat - 0xE0) 1 0x80 0xBF
  else if b = 0xF0 then pending (b.toNat - 0xF0) 2 0x90 0xBF
  else if b < 0xF4 then pending (b.toNat - 0xF0) 2 0x80 0xBF
  else if b = 0xF4 then pending (b.toNat - 0xF0) 2 0x80 0x8F
  else none

/-- The fault of a character that is broken off at a place. -/
def Pending.fault (p : Pending) (place : Nat) (cause : Cause) : Fault :=
  { start := p.start, octet := p.octet, count := place - p.start, cause }

/-- Reads on at a place, inside a character or between two, with the characters read so far in
reverse. -/
def decodeFrom (place : Nat) (pending? : Option Pending) (read : List Char) :
    List UInt8 → Except Fault (List Char)
  | [] =>
    match pending? with
    | none => .ok read.reverse
    | some p => .error (p.fault place .truncated)
  | b :: rest =>
    match pending? with
    | some p =>
      -- Inside a character the next octet has to lie in the range that is left.
      if p.low ≤ b && b ≤ p.high then
        let bits := p.bits * 64 + (b.toNat - 0x80)
        match p.owed with
        | 0 => decodeFrom (place + 1) none (Char.ofNat bits :: read) rest
        | owed + 1 =>
          let p := { p with bits := bits, owed := owed, low := 0x80, high := 0xBF }
          decodeFrom (place + 1) (some p) read rest
      else .error (p.fault place .invalidContinuation)
    | none =>
      -- Between characters an octet of ASCII is one, and any other has to open one.
      if b < 0x80 then decodeFrom (place + 1) none (Char.ofNat b.toNat :: read) rest
      else
        match opening? place b with
        | some p => decodeFrom (place + 1) (some p) read rest
        | none => .error { start := place, octet := b, count := 1, cause := .invalidStart }

/-- The characters that octets spell in UTF-8. -/
def decode (bs : List UInt8) : Except Fault (List Char) := decodeFrom 0 none [] bs

end ShapeSchema.Text.Utf8
