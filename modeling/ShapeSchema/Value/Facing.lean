import ShapeSchema.Value.Entries

/-!
# Two values side by side

When two values are held against each other, parts of them come to face each other: what stands at
one index of two sequences, and what stands under equal keys of two objects. `Value.Faces` is this
relation, at any depth.
-/

namespace ShapeSchema.Value

/-- When the first two values are held against each other, the last two, which are parts of them,
face each other. -/
inductive Faces : Value → Value → Value → Value → Prop where
  /-- The values face each other themselves. -/
  | here (v w : Value) : Faces v w v w
  /-- Elements at one index face each other, and so do their parts. -/
  | element {v w x y item other : Value} {items others : List Value} {i : Nat}
    (hv : v.items? = some items) (hw : w.items? = some others) (hitem : items[i]? = some item)
    (hother : others[i]? = some other) (rest : Faces item other x y) : Faces v w x y
  /-- The items under equal keys face each other, and so do their parts. -/
  | item {entries others : List (Value × Value)} {key item other x y : Value}
    (mem : (key, item) ∈ entries) (hget : Entries.get? others key = some other)
    (rest : Faces item other x y) : Faces (.object entries) (.object others) x y

end ShapeSchema.Value
