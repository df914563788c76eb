import ShapeSchema.Text.Printable

/-!
# Quoted text

How a text is shown inside quotes, so that it can be told from a number or a name and nothing in
it is invisible. Single quotes are used unless the text holds a single quote and no double one.
Inside, the backslash and the quote in use are escaped, tab, line feed and carriage return have
escapes of their own, and any other character that is not printable is written by its code point
in two, four or eight hexadecimal digits. Octets are shown in the same way, those beyond the
printable ASCII range in two digits.
-/

namespace ShapeSchema.Text

/-- The lower-case hexadecimal digit of a number below sixteen. -/
def hexDigit (d : Nat) : Char :=
  if d < 10 then Char.ofNat (48 + d) else Char.ofNat (87 + d)

/-- The last `width` hexadecimal digits of a number, the most significant first. -/
def hexDigits : Nat → Nat → List Char
  | 0, _ => []
  | width + 1, n => hexDigits width (n / 16) ++ [hexDigit (n % 16)]

/-- There are as many digits as were asked for. -/
theorem length_hexDigits (width n : Nat) : (hexDigits width n).length = width := by
  induction width generalizing n with
  | zero => rfl
  | succ width ih => simp [hexDigits, ih]

/-- The escape of a character by its code point, in the shortest of the three widths. -/
def codePointEscape (n : Nat) : List Char :=
  if n < 0x100 then '\\' :: 'x' :: hexDigits 2 n
  else if n < 0x10000 then '\\' :: 'u' :: hexDigits 4 n
  else '\\' :: 'U' :: hexDigits 8 n

/-- One character inside quotes, given the quote in use and which characters may stand for
themselves. -/
def escapeChar (plain : Char → Bool) (quote c : Char) : List Char :=
  if c = quote || c = '\\' then ['\\', c]
  else if c = '\t' then ['\\', 't']
  else if c = '\n' then ['\\', 'n']
  else if c = '\r' then ['\\', 'r']
  else if plain c then [c]
  else codePointEscape c.toNat

/-- The quote for a text: double if it holds a single quote and no double one. -/
def quoteFor (cs : List Char) : Char :=
  if cs.contains '\'' && !cs.contains '"' then '"' else '\''

/-- Characters inside quotes. -/
def quoteChars (plain : Char → Bool) (cs : List Char) : List Char :=
  quoteFor cs :: cs.flatMap (escapeChar plain (quoteFor cs)) ++ [quoteFor cs]

/-- A text inside quotes. -/
def quote (s : String) : String := String.ofList (quoteChars isPrintable s.toList)

/-- Whether a character is a printable one of ASCII. -/
def isPrintableAscii (c : Char) : Bool := ' ' ≤ c && c ≤ '~'

/-- Octets inside quotes, marked with a leading letter. -/
def quoteOctets (bs : List UInt8) : String :=
  String.ofList ('b' :: quoteChars isPrintableAscii (bs.map fun b => Char.ofNat b.toNat))

end ShapeSchema.Text
