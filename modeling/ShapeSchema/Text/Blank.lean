/-!
# Blank characters

The characters with the Unicode property of white space: the ordinary space and the controls that
move the print position, the spaces of fixed width, and the separators of lines and paragraphs.
-/

namespace ShapeSchema.Text

/-- The blank code points as ranges, ends included, in ascending order. -/
def blankRanges : List (Nat × Nat) :=
  [(9, 13), (32, 32), (133, 133), (160, 160), (5760, 5760), (8192, 8202), (8232, 8233),
   (8239, 8239), (8287, 8287), (12288, 12288)]

/-- Whether a character is white space. -/
def isBlank (c : Char) : Bool :=
  blankRanges.any fun r => r.1 ≤ c.toNat && c.toNat ≤ r.2

/-- Text without the blanks at both its ends. -/
def trimBlanks (cs : List Char) : List Char :=
  ((cs.dropWhile isBlank).reverse.dropWhile isBlank).reverse

end ShapeSchema.Text
