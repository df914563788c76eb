import ShapeSchema.Json.Refusal
import ShapeSchema.Value.Basic
import ShapeSchema.Double.Rounding

/-!
# Numbers and words of a document

A number has digits without a superfluous zero in front, and it may have a fraction and an
exponent; with either of them it denotes the nearest double, and otherwise an integer of any size. A
point or an exponent mark without digits behind it is not part of the number. Five words and the
negative infinity stand for values as well.
-/

namespace ShapeSchema.Json

/-- Whether a character is one of the ten ASCII digits. -/
def isAsciiDigit (c : Char) : Bool := '0' ≤ c && c ≤ '9'

/-- The number that ASCII digits spell. -/
def natOfDigits (ds : List Char) : Nat := ds.foldl (fun n d => 10 * n + (d.toNat - 48)) 0

/-- The leading digits of a text, and what follows them. -/
def leadingDigits (cs : List Char) : List Char × List Char :=
  (cs.takeWhile isAsciiDigit, cs.dropWhile isAsciiDigit)

/-- Nothing is lost. -/
theorem leadingDigits_append (cs : List Char) :
    (leadingDigits cs).1 ++ (leadingDigits cs).2 = cs := List.takeWhile_append_dropWhile

/-- An exponent as it is written. -/
structure Exponent where
  /-- The letter in front of it. -/
  mark : Char
  /-- Its sign, if it has one. -/
  sign : List Char
  /-- Its digits. -/
  digits : List Char

/-- The number of characters of an exponent, if there is one. -/
def Exponent.length : Option Exponent → Nat
  | none => 0
  | some e => 1 + e.sign.length + e.digits.length

/-- A number as it is written. -/
structure Numeral where
  /-- Whether there is a minus sign. -/
  negative : Bool
  /-- The digits before the point. -/
  whole : List Char
  /-- The digits behind the point; none if there is no point. -/
  fraction : List Char
  /-- The exponent, if there is one. -/
  exponent? : Option Exponent

namespace Numeral

/-- A minus sign, if that is what comes first. -/
def scanMinus : List Char → Bool × List Char
  | '-' :: rest => (true, rest)
  | cs => (false, cs)

/-- The digits before the point: a single zero, or digits that do not start with one. -/
def scanWhole : List Char → List Char × List Char
  | '0' :: rest => (['0'], rest)
  | cs => leadingDigits cs

/-- A point with digits behind it, if that is what comes next. -/
def scanFraction : List Char → List Char × List Char
  | '.' :: more =>
    if (leadingDigits more).1.isEmpty then ([], '.' :: more) else leadingDigits more
  | cs => ([], cs)

/-- The sign of an exponent, if there is one. -/
def scanSign : List Char → List Char × List Char
  | '+' :: rest => (['+'], rest)
  | '-' :: rest => (['-'], rest)
  | cs => ([], cs)

/-- An exponent with digits, if that is what comes next. -/
def scanExponent : List Char → Option Exponent × List Char
  | [] => (none, [])
  | c :: more =>
    let sign := scanSign more
    let digits := leadingDigits sign.2
    if (c = 'e' ∨ c = 'E') ∧ digits.1 ≠ [] then (some ⟨c, sign.1, digits.1⟩, digits.2)
    else (none, c :: more)

/-- The number at the start of a text, and what follows it. -/
def scan? (cs : List Char) : Option (Numeral × List Char) :=
  let minus := scanMinus cs
  let whole := scanWhole minus.2
  if whole.1.isEmpty then none
  else
    let fraction := scanFraction whole.2
    let exponent := scanExponent fraction.2
    some (⟨minus.1, whole.1, fraction.1, exponent.1⟩, exponent.2)

/-- The number of characters of a number. -/
def length (n : Numeral) : Nat :=
  (if n.negative then 1 else 0) + n.whole.length +
    (if n.fraction.isEmpty then 0 else n.fraction.length + 1) + Exponent.length n.exponent?

/-- Whether a number has neither a fraction nor an exponent. -/
def isInteger (n : Numeral) : Bool := n.fraction.isEmpty && n.exponent?.isNone

/-- The power of ten that the exponent denotes. -/
def power (n : Numeral) : Int :=
  match n.exponent? with
  | none => 0
  | some e => signed (e.sign == ['-']) (natOfDigits e.digits)

/-- The double nearest to what a number denotes. -/
def toDouble (n : Numeral) : Double :=
  Double.ofDecimal n.negative (natOfDigits (n.whole ++ n.fraction))
    (n.power - n.fraction.length)

/-- The value of a number, within a limit on the digits of integers. -/
def value (limits : Limits) (n : Numeral) : Except Refusal Value :=
  if n.isInteger then
    if limits.digits < n.whole.length then
      .error (.tooManyDigits limits.digits n.whole.length)
    else .ok (.integer (signed n.negative (natOfDigits n.whole)))
  else .ok (.double n.toDouble)

/-- Digits that are split off are as many as are missing behind them. -/
theorem length_leadingDigits (cs : List Char) :
    (leadingDigits cs).1.length + (leadingDigits cs).2.length = cs.length := by
  rw [← List.length_append, leadingDigits_append]

theorem length_scanMinus (cs : List Char) :
    (if (scanMinus cs).1 then 1 else 0) + (scanMinus cs).2.length = cs.length := by
  fun_cases scanMinus cs
  · simp [Nat.add_comm]
  · simp

theorem length_scanWhole (cs : List Char) :
    (scanWhole cs).1.length + (scanWhole cs).2.length = cs.length := by
  fun_cases scanWhole cs
  · simp [Nat.add_comm]
  · exact length_leadingDigits cs

theorem length_scanFraction (cs : List Char) :
    (if (scanFraction cs).1.isEmpty then 0 else (scanFraction cs).1.length + 1) +
      (scanFraction cs).2.length = cs.length := by
  fun_cases scanFraction cs
  · simp
  · rename_i more h
    have := length_leadingDigits more
    simp only [h, List.length_cons]
    simp only [Bool.false_eq_true, if_false]
    omega
  · simp

theorem length_scanSign (cs : List Char) :
    (scanSign cs).1.length + (scanSign cs).2.length = cs.length := by
  fun_cases scanSign cs
  · simp [Nat.add_comm]
  · simp [Nat.add_comm]
  · simp

theorem length_scanExponent (cs : List Char) :
    Exponent.length (scanExponent cs).1 + (scanExponent cs).2.length = cs.length := by
  match cs with
  | [] => rfl
  | c :: more =>
    have h₁ := length_scanSign more
    have h₂ := length_leadingDigits (scanSign more).2
    simp only [scanExponent]
    split
    · simp only [Exponent.length, List.length_cons]
      omega
    · simp [Exponent.length]

/-- A number and what follows it are as long as the text together. -/
theorem length_scan? {cs rest : List Char} {n : Numeral} (h : scan? cs = some (n, rest)) :
    n.length + rest.length = cs.length := by
  simp only [scan?] at h
  split at h
  · simp at h
  · simp only [Option.some.injEq, Prod.mk.injEq] at h
    obtain ⟨rfl, rfl⟩ := h
    have h₁ := length_scanMinus cs
    have h₂ := length_scanWhole (scanMinus cs).2
    have h₃ := length_scanFraction (scanWhole (scanMinus cs).2).2
    have h₄ := length_scanExponent (scanFraction (scanWhole (scanMinus cs).2).2).2
    simp only [length]
    omega

/-- A number has a digit before its point. -/
theorem length_pos_of_scan? {cs rest : List Char} {n : Numeral} (h : scan? cs = some (n, rest)) :
    0 < n.length := by
  simp only [scan?] at h
  split at h
  · simp at h
  · rename_i hw
    simp only [Option.some.injEq, Prod.mk.injEq] at h
    obtain ⟨rfl, rfl⟩ := h
    have : 0 < (scanWhole (scanMinus cs).2).1.length := by
      simpa [List.length_pos_iff] using hw
    simp only [length]
    omega

end Numeral

/-- What follows a word, if a text starts with it. -/
def afterWord? : List Char → List Char → Option (List Char)
  | [], cs => some cs
  | _ :: _, [] => none
  | w :: word, c :: cs => if w = c then afterWord? word cs else none

/-- A text that starts with a word is that word and what follows it. -/
theorem eq_append_of_afterWord? {word cs rest : List Char} (h : afterWord? word cs = some rest) :
    cs = word ++ rest := by
  fun_induction afterWord? word cs with
  | case1 cs => simpa using h
  | case2 => simp at h
  | case3 w word cs ih => simpa using ih h
  | case4 => simp at h

/-- A word that stands for a value. -/
structure Word where
  /-- Its first letter. -/
  head : Char
  /-- Its other letters. -/
  tail : List Char
  /-- What it stands for. -/
  value : Value

/-- The words that stand for values. What is not a number is one and the same object in all
places. -/
def words : List Word :=
  [⟨'n', "ull".toList, .null⟩, ⟨'t', "rue".toList, .boolean true⟩,
   ⟨'f', "alse".toList, .boolean false⟩, ⟨'N', "aN".toList, .double (.nan 0)⟩,
   ⟨'I', "nfinity".toList, .double (.infinite false)⟩,
   ⟨'-', "Infinity".toList, .double (.infinite true)⟩]

/-- The word that a character and the text behind it start with. -/
def word? (c : Char) (rest : List Char) : Option Word :=
  words.find? fun w => w.head == c && (afterWord? w.tail rest).isSome

end ShapeSchema.Json
