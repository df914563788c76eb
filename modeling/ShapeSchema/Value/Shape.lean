import Mathlib.Data.List.Forall2
import ShapeSchema.Value.Basic

/-!
# The shape of a value

What a value looks like down to a depth is told by the kinds of its parts there, by which of them
are whole numbers, by the lengths of sequences, and by the keys of objects. `Value.SameShape`
relates values that look alike so far. Texts, truth values and the sizes of numbers are no part of a
shape, and neither is whether a sequence is a list or a tuple.
-/

namespace ShapeSchema.Value

/-- The kinds of the values have one name, and both are whole numbers or none is. -/
structure SameClass (v v' : Value) : Prop where
  /-- Their kinds have one name. -/
  kind : v.kind.text = v'.kind.text
  /-- Both are whole numbers, or none is. -/
  isInteger : v.isInteger = v'.isInteger

/-- The values have the same shape down to so many levels below them: they are of one class, and if
there is a level below, then sequences are of one length with elements of the same shape, and
objects have the same keys in the same order with items of the same shape. -/
def SameShape : Nat → Value → Value → Prop
  | 0, v, v' => SameClass v v'
  | depth + 1, v, v' => SameClass v v' ∧
    Option.Rel (List.Forall₂ (SameShape depth)) v.items? v'.items? ∧
    Option.Rel (List.Forall₂ fun e e' => e.1 = e'.1 ∧ SameShape depth e.2 e'.2)
      v.entries? v'.entries?

end ShapeSchema.Value
