import ShapeSchema.Value.Basic

/-!
# Values that say the same

A document may name the entries of an object in any order, and it may write a whole number as an
integer or with a fractional part; the elements of a set have no order to begin with.
`Value.Restated` relates two values that differ in nothing else.
-/

namespace ShapeSchema.Value

/-- The second value is the first with the entries of objects and the elements of sets in other
orders and with numbers in the place of equal numbers, at any depth. Keys are kept, and so are truth
values. -/
inductive Restated : Value → Value → Prop where
  /-- Nothing is restated. -/
  | same (v : Value) : Restated v v
  /-- A number in the place of an equal one. -/
  | number {v w : Value} {q : Quantity} (hv : v.kind = .number) (hw : w.kind = .number)
    (hvq : v.quantity? = some q) (hwq : w.quantity? = some q) : Restated v w
  /-- The elements of a list are restated. -/
  | list {items items' : List Value} (hlength : items.length = items'.length)
    (parts : ∀ p ∈ items.zip items', Restated p.1 p.2) : Restated (.list items) (.list items')
  /-- The elements of a tuple are restated. -/
  | tuple {items items' : List Value} (hlength : items.length = items'.length)
    (parts : ∀ p ∈ items.zip items', Restated p.1 p.2) : Restated (.tuple items) (.tuple items')
  /-- The elements of a set are restated, and come in another order. -/
  | set {elements middle elements' : List Value} (hlength : elements.length = middle.length)
    (parts : ∀ p ∈ elements.zip middle, Restated p.1 p.2) (perm : middle.Perm elements') :
    Restated (.set elements) (.set elements')
  /-- The items of an object are restated, and its entries put into another order. -/
  | object {entries middle entries' : List (Value × Value)}
    (hkeys : entries.map Prod.fst = middle.map Prod.fst)
    (parts : ∀ p ∈ entries.zip middle, Restated p.1.2 p.2.2) (perm : middle.Perm entries') :
    Restated (.object entries) (.object entries')

end ShapeSchema.Value
