import ShapeSchema.Conformance.Check
import ShapeSchema.Value.Shape

/-!
# Values of one class and of one shape

Values of the same shape are of one class, whatever the depth (`SameShape.sameClass`), and they
belong to the same tags, if the shape tells that they are sequences together
(`SameShape.tagAccepts_eq`): the name of a kind does not. Every value has its own shape.
-/

namespace ShapeSchema.Value

variable {v v' : Value}

/-- Values of one class belong to the same tags, if they are sequences together. -/
theorem SameClass.tagAccepts_eq (h : SameClass v v') (hsequence : v.isSequence = v'.isSequence)
    (t : Tag) : Checker.tagAccepts t v = Checker.tagAccepts t v' := by
  cases t <;> simp only [Checker.tagAccepts, h.kind, h.isInteger, hsequence]

namespace SameShape

/-- Values of the same shape are of one class. -/
theorem sameClass {depth : Nat} (h : SameShape depth v v') : SameClass v v' := by
  cases depth with
  | zero => exact h
  | succ depth => exact h.1

/-- Values of the same shape are sequences together, if there is a level below. -/
theorem isSequence_eq {depth : Nat} (h : SameShape (depth + 1) v v') :
    v.isSequence = v'.isSequence := by
  obtain ⟨-, hitems, -⟩ := h
  rw [isSequence, isSequence]
  generalize v.items? = items, v'.items? = items' at hitems
  cases hitems <;> rfl

/-- Values of the same shape belong to the same tags, if there is a level below. -/
theorem tagAccepts_eq {depth : Nat} (h : SameShape (depth + 1) v v') (t : Tag) :
    Checker.tagAccepts t v = Checker.tagAccepts t v' :=
  h.sameClass.tagAccepts_eq h.isSequence_eq t

/-- Every value has its own shape. -/
theorem refl (depth : Nat) (v : Value) : SameShape depth v v := by
  induction depth generalizing v with
  | zero => exact ⟨rfl, rfl⟩
  | succ depth ih =>
    refine ⟨⟨rfl, rfl⟩, ?_, ?_⟩
    · cases v.items? with
      | none => exact .none
      | some items => exact .some (List.forall₂_same.2 fun item _ => ih item)
    · cases v.entries? with
      | none => exact .none
      | some entries => exact .some (List.forall₂_same.2 fun e _ => ⟨rfl, ih e.2⟩)

end SameShape

end ShapeSchema.Value
