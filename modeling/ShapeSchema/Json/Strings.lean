import ShapeSchema.Json.Refusal

/-!
# Strings of a document

A string runs up to the next double quote. Control characters may not stand in it, and a backslash
starts an escape: of one character, or of a code unit in four hexadecimal digits. Two escaped
halves of a surrogate pair are one character.
-/

namespace ShapeSchema.Json

/-- The value of a hexadecimal digit of either case. -/
def hexValue? (c : Char) : Option Nat :=
  if '0' ≤ c ∧ c ≤ '9' then some (c.toNat - 48)
  else if 'a' ≤ c ∧ c ≤ 'f' then some (c.toNat - 87)
  else if 'A' ≤ c ∧ c ≤ 'F' then some (c.toNat - 55)
  else none

/-- The code unit that four hexadecimal digits spell. Something has to follow them. -/
def codeUnit? : List Char → Option (Nat × List Char)
  | a :: b :: c :: d :: e :: rest =>
    match hexValue? a, hexValue? b, hexValue? c, hexValue? d with
    | some a, some b, some c, some d => some (((a * 16 + b) * 16 + c) * 16 + d, e :: rest)
    | _, _, _, _ => none
  | _ => none

/-- What is left behind a code unit is shorter by its digits. -/
theorem length_of_codeUnit? {cs rest : List Char} {n : Nat} (h : codeUnit? cs = some (n, rest)) :
    rest.length + 4 = cs.length := by
  match cs with
  | a :: b :: c :: d :: e :: more =>
    simp only [codeUnit?] at h
    split at h
    · simp only [Option.some.injEq, Prod.mk.injEq] at h
      obtain ⟨-, rfl⟩ := h
      simp
    · simp at h
  | [] | [_] | [_, _] | [_, _, _] | [_, _, _, _] => simp [codeUnit?] at h

/-- Whether a code unit is the first half of a surrogate pair. -/
def isHighSurrogate (n : Nat) : Bool := 0xD800 ≤ n && n ≤ 0xDBFF

/-- Whether a code unit is the second half of a surrogate pair. -/
def isLowSurrogate (n : Nat) : Bool := 0xDC00 ≤ n && n ≤ 0xDFFF

/-- The code point of a surrogate pair. -/
def joinSurrogates (high low : Nat) : Nat :=
  0x10000 + (high - 0xD800) * 0x400 + (low - 0xDC00)

/-- The character of a code point. Half of a surrogate pair is no character and is read as the
replacement character. -/
def charOf (n : Nat) : Char := if n.isValidChar then Char.ofNat n else '\uFFFD'

/-- The character that an escape of one character stands for. -/
def shortEscape? (c : Char) : Option Char :=
  if c = '"' ∨ c = '\\' ∨ c = '/' then some c
  else if c = 'b' then some '\x08'
  else if c = 'f' then some '\x0c'
  else if c = 'n' then some '\n'
  else if c = 'r' then some '\r'
  else if c = 't' then some '\t'
  else none

/-- The character of an escaped code unit, joined with a second half that is escaped right behind
it. -/
def unitEscape (offset n : Nat) (rest : List Char) : Scanned Char rest :=
  match rest with
  | '\\' :: 'u' :: more =>
    match h : codeUnit? more with
    | some (low, rest') =>
      -- Only two halves in this order make a pair. Otherwise the second escape is read on its own.
      if isHighSurrogate n && isLowSurrogate low then
        ⟨charOf (joinSurrogates n low), offset + 6, rest', by
          have := length_of_codeUnit? h
          simp only [List.length_cons]
          omega⟩
      else .start (charOf n) offset ('\\' :: 'u' :: more)
    | none => .start (charOf n) offset ('\\' :: 'u' :: more)
  | rest => .start (charOf n) offset rest

/-- The character that an escape stands for, read behind the backslash. `start` is the place of
the string, and `offset` that of the backslash. -/
def escape (start offset : Nat) (cs : List Char) : Except Refusal (Scanned Char cs) :=
  match cs with
  | [] => .error (.malformed .unterminatedString start)
  | 'u' :: rest =>
    match h : codeUnit? rest with
    | some (n, rest') =>
      .ok ((unitEscape (offset + 6) n rest').widen (by
        have := length_of_codeUnit? h
        simp only [List.length_cons]
        omega))
    | none => .error (.malformed .invalidUnit (offset + 1))
  | c :: rest =>
    match shortEscape? c with
    | some c => .ok ⟨c, offset + 2, rest, Nat.le_succ _⟩
    | none => .error (.malformed .invalidEscape offset)

/-- A string that starts at a place, read on behind the characters that have been read in
reverse. -/
def scanString {whole : List Char} (start : Nat) (read : Scanned (List Char) whole) :
    Except Refusal (Scanned String whole) :=
  match hcs : read.rest with
  | [] => .error (.malformed .unterminatedString start)
  | c :: rest =>
    have shorter : rest.length < read.rest.length := by simp [hcs]
    have within : rest.length ≤ whole.length := Nat.le_trans (Nat.le_of_lt shorter) read.within
    if c = '"' then .ok ⟨String.ofList read.value.reverse, read.offset + 1, rest, within⟩
    else if c = '\\' then
      match escape start read.offset rest with
      | .error refusal => .error refusal
      | .ok s =>
        have : s.rest.length < read.rest.length := Nat.lt_of_le_of_lt s.within shorter
        scanString start
          ⟨s.value :: read.value, s.offset, s.rest, Nat.le_trans s.within within⟩
    else if c < ' ' then .error (.malformed .invalidControl read.offset)
    else scanString start ⟨c :: read.value, read.offset + 1, rest, within⟩
termination_by read.rest.length
decreasing_by all_goals assumption

end ShapeSchema.Json
