import ShapeSchema.Proofs.Schema.Correspondence
import ShapeSchema.Proofs.Value.Equality
import ShapeSchema.Proofs.Value.Shape
import ShapeSchema.Value.Restated

/-!
# What a restatement keeps

Restated values are regarded as one wherever values are compared (`Restated.alike_eq`): they are of
one kind (`Restated.kind_eq`), belong to the same classes (`Restated.tagAccepts_eq`) and are the
same as the same members of enumerations (`Restated.same_eq`). What a value has in it is restated
along with it (`Restated.items?_rel`, `Restated.exists_entries`), and the first value restates the
second one as well (`Restated.symm`).
-/

namespace ShapeSchema

namespace Value

namespace Restated

variable {v v' : Value}

/-- Restated values are of one kind. -/
theorem kind_eq (h : Restated v v') : v.kind = v'.kind := by
  cases h with
  | number hv hw => rw [hv, hw]
  | _ => rfl

/-- Restated values are numbers together. -/
theorem isNaN_eq (h : Restated v v') : v.isNaN = v'.isNaN := by
  cases h with
  | number _ _ hvq hwq => rw [isNaN_of_quantity? hvq, isNaN_of_quantity? hwq]
  | _ => rfl

/-- Restated values are whole together. -/
theorem isInteger_eq (h : Restated v v') : v.isInteger = v'.isInteger := by
  cases h with
  | number hv hw hvq hwq => rw [Bool.eq_iff_iff, isInteger_iff hv, isInteger_iff hw, hvq, hwq]
  | _ => rfl

/-- Restated values are sequences together. -/
theorem isSequence_eq (h : Restated v v') : v.isSequence = v'.isSequence := by
  rw [Bool.eq_iff_iff, isSequence_iff, isSequence_iff, h.kind_eq]

/-- Restated values belong to the same classes. -/
theorem tagAccepts_eq (h : Restated v v') (t : Tag) :
    Checker.tagAccepts t v = Checker.tagAccepts t v' :=
  SameClass.tagAccepts_eq ⟨congrArg Kind.text h.kind_eq, h.isInteger_eq⟩ h.isSequence_eq t

/-- Restated values are alike to the same values. -/
theorem alike_eq (h : Restated v v') (w : Value) : v.alike w = v'.alike w := by
  induction h generalizing w with
  | same => rfl
  | number _ _ hvq hwq => rw [alike_of_quantity? hvq, alike_of_quantity? hwq]
  | list hlength _ ih =>
    have hitems := List.forall₂_iff_zip.2 ⟨hlength, fun hp => ih _ hp⟩
    cases w with
    | list others => exact alikeAll_congr hitems others
    | _ => rfl
  | tuple hlength _ ih =>
    have hitems := List.forall₂_iff_zip.2 ⟨hlength, fun hp => ih _ hp⟩
    cases w with
    | tuple others => exact alikeAll_congr hitems others
    | _ => rfl
  | @set elements middle _ hlength _ perm ih =>
    have helements := List.forall₂_iff_zip.2 ⟨hlength, fun hp => ih _ hp⟩
    cases w with
    | set others =>
      have hall : (elements.all fun v => others.any v.alike) =
          middle.all fun v => others.any v.alike :=
        all_congr (helements.imp fun _ _ h => by rw [funext h])
      rw [alike, alike, alikeElements_eq_all, alikeElements_eq_all, hall, perm.all_eq, hlength,
        perm.length_eq]
    | _ => rfl
  | @object entries middle _ hkeys _ perm ih =>
    have hentries := (Entries.forall₂_iff_zip
      (R := fun e e' => ∀ w, e.2.alike w = e'.2.alike w)).2 ⟨hkeys, ih⟩
    cases w with
    | object others =>
      have hall : (entries.all fun e =>
            (others.find? fun o => e.1.alike o.1).any fun o => e.2.alike o.2) =
          middle.all fun e => (others.find? fun o => e.1.alike o.1).any fun o => e.2.alike o.2 :=
        all_congr (hentries.imp fun _ _ h => by simp only [h.1, h.2])
      rw [alike, alike, alikeEntries_eq_all, alikeEntries_eq_all, hall, perm.all_eq,
        hentries.length_eq, perm.length_eq]
    | _ => rfl

/-- Restated values are the same as the same values. -/
theorem same_eq (h : Restated v v') (w : Value) : v.same w = v'.same w := by
  rw [Value.same, Value.same, equal, equal, h.kind_eq, h.isNaN_eq, h.alike_eq]

/-- A restated value restates what it was. -/
theorem symm (h : Restated v v') : Restated v' v := by
  induction h with
  | same => exact .same _
  | number hv hw hvq hwq => exact .number hw hv hwq hvq
  | list hlength _ ih => exact .list hlength.symm (forall_mem_zip_comm ih)
  | tuple hlength _ ih => exact .tuple hlength.symm (forall_mem_zip_comm ih)
  | set hlength _ perm ih =>
    obtain ⟨middle, hlength, hparts, hperm⟩ := exists_perm_zip hlength ih perm
    exact .set hlength hparts hperm
  | object hkeys _ perm ih =>
    obtain ⟨middle, hkeys, hparts, hperm⟩ := Entries.exists_perm_zip hkeys ih perm
    exact .object hkeys hparts hperm

/-- The elements of a sequence are restated along with it. -/
theorem items?_rel (h : Restated v v') :
    Option.Rel (List.Forall₂ Restated) v.items? v'.items? := by
  cases h with
  | same =>
    cases v.items? with
    | none => exact .none
    | some items => exact .some (List.forall₂_same.2 fun _ _ => .same _)
  | number hv hw =>
    have hscalar {w : Value} (hkind : w.kind = .number) : w.items? = none := by
      cases w <;> simp_all [kind, items?]
    rw [hscalar hv, hscalar hw]
    exact .none
  | list hlength parts =>
    exact .some (List.forall₂_iff_zip.2 ⟨hlength, fun hp => parts _ hp⟩)
  | tuple hlength parts =>
    exact .some (List.forall₂_iff_zip.2 ⟨hlength, fun hp => parts _ hp⟩)
  | set => exact .none
  | object => exact .none

/-- What restates an object is an object of the same keys, each of whose items restates what the
first object has under that key. -/
theorem exists_entries {data : List (Value × Value)} (h : Restated (.object data) v') :
    ∃ data', v' = .object data' ∧ (∀ e' ∈ data', ∃ e ∈ data, e.1 = e'.1 ∧ Restated e.2 e'.2) ∧
      ∀ key, Entries.contains data' key = Entries.contains data key := by
  cases h with
  | same => exact ⟨data, rfl, fun e he => ⟨e, he, rfl, .same _⟩, fun _ => rfl⟩
  | number hv => simp [kind] at hv
  | object hkeys parts perm =>
    refine ⟨_, rfl, fun e' he' => ?_, fun key => ?_⟩
    · have hentries := (Entries.forall₂_iff_zip (R := fun e e' => Restated e.2 e'.2)).2
        ⟨hkeys, parts⟩
      exact exists_mem_of_forall₂ hentries.flip (perm.mem_iff.2 he')
    · rw [Entries.contains_congr hkeys]
      exact perm.symm.any_eq

end Restated

end Value

end ShapeSchema
