import Mathlib
import ShapeSchema.Proofs.Value.Equality
import ShapeSchema.Value.Text

/-!
# Rendering and equality

Values without parts that are the same are rendered alike (`render_eq_of_same`), and a number that
is rendered like a whole number is the same as it (`same_of_render_eq`). A whole number is rendered
as the integer that it is equal to, whatever its type (`render_of_ofInt`), and integers are told
apart by their digits. The text of a double is none of these: whichever way it is laid out, there is
a point or a letter in it (`Double.text_ne_toString`). Two doubles of the same quantity that are not
whole are one (`Double.eq_of_quantity?`), so that their texts need not be looked at.
-/

namespace ShapeSchema

/-! ## The text of a number -/

/-- The text of an integer consists of digits and a sign. -/
theorem isDigit_or_eq_of_mem_toString {n : Int} {c : Char} (h : c ∈ (toString n).toList) :
    c.isDigit = true ∨ c = '-' := by
  have hdigits {k : Nat} (hc : c ∈ k.repr.toList) : c.isDigit = true := by
    rw [Nat.repr_eq_ofList_toDigits, String.toList_ofList] at hc
    exact Nat.isDigit_of_mem_toDigits (by decide) (by decide) hc
  rw [Int.toString_eq_repr, Int.repr_eq_if] at h
  split at h
  · exact .inl (hdigits h)
  · rw [String.toList_append, List.mem_append] at h
    rcases h with hsign | hc
    · exact .inr (by simpa using hsign)
    · exact .inl (hdigits hc)

namespace Layout

variable {l : Layout}

/-- Positional digits show a point, if whole numbers are marked with one. -/
theorem point_mem_positional (h : '.' ∈ l.wholeMark) (ds : List Char) (point : Int) :
    '.' ∈ l.positional ds point := by
  rw [positional]
  split
  · exact List.mem_cons_of_mem _ List.mem_cons_self
  · split
    · exact List.mem_append_right _ h
    · exact List.mem_append_right _ List.mem_cons_self

/-- Digits with an exponent show its mark. -/
theorem exponentMark_mem_scientific (ds : List Char) (exponent : Int) :
    l.exponentMark ∈ l.scientific ds exponent := by
  have hmark : l.exponentMark ∈ l.exponentText exponent := List.mem_cons_self
  unfold scientific
  split
  · exact List.mem_append_right _ hmark
  · exact List.mem_append_right _ hmark

/-- A decimal shows a point or the mark of an exponent. -/
theorem mark_mem_decimal (h : '.' ∈ l.wholeMark) (d : Decimal) :
    '.' ∈ l.decimal d ∨ l.exponentMark ∈ l.decimal d := by
  simp only [decimal]
  split
  · exact .inl (point_mem_positional h _ _)
  · exact .inr (exponentMark_mem_scientific _ _)

end Layout

namespace Double

/-- In the text of a double there is something that is neither a digit nor a sign. -/
theorem exists_mark_mem_text (x : Double) :
    ∃ c ∈ x.text.toList, c.isDigit = false ∧ c ≠ '-' := by
  cases x with
  | nan => exact ⟨'n', by simp [text, Layout.write, layout], by decide, by decide⟩
  | infinite negative => exact ⟨'i', by cases negative <;> decide, by decide, by decide⟩
  | finite negative m e canonical =>
    have hmagnitude : '.' ∈ (if m = 0 then '0' :: layout.wholeMark
          else layout.decimal (shortest m e)) ∨
        'e' ∈ (if m = 0 then '0' :: layout.wholeMark else layout.decimal (shortest m e)) := by
      split
      · exact .inl (by decide)
      · exact Layout.mark_mem_decimal (by decide) _
    have hsigned {c : Char} {cs : List Char} (hc : c ∈ cs) :
        c ∈ (if negative then '-' :: cs else cs) := by
      split
      · exact List.mem_cons_of_mem _ hc
      · exact hc
    simp only [text, Layout.write, String.toList_ofList]
    rcases hmagnitude with hc | hc
    · exact ⟨'.', hsigned hc, by decide, by decide⟩
    · exact ⟨'e', hsigned hc, by decide, by decide⟩

/-- The text of a double is not that of an integer. -/
theorem text_ne_toString (x : Double) (n : Int) : x.text ≠ toString n := by
  intro h
  obtain ⟨c, hc, hdigit, hsign⟩ := x.exists_mark_mem_text
  rw [h] at hc
  rcases isDigit_or_eq_of_mem_toString hc with h | h
  · simp [h] at hdigit
  · exact hsign h

end Double

namespace Value

/-! ## Rendering -/

/-- A whole number is rendered as the integer that it is equal to. -/
theorem render_of_ofInt {v : Value} {n : Int} (hkind : v.kind = .number)
    (hq : v.quantity? = some (.ofInt n)) : v.render = toString n := by
  cases v with
  | integer k =>
    obtain rfl : k = n := Quantity.ofInt_inj.1 (Option.some.inj hq)
    rfl
  | double x =>
    have hint : x.toInt? = some n := Double.toInt?_eq_some_iff.2 hq
    simp [render, hint]
  | _ => simp [kind] at hkind

/-- Numbers of the same quantity are rendered alike. -/
theorem render_eq_of_quantity? {v w : Value} {q : Quantity} (hv : v.kind = .number)
    (hw : w.kind = .number) (hvq : v.quantity? = some q) (hwq : w.quantity? = some q) :
    v.render = w.render := by
  by_cases hwhole : ∃ n, q = .ofInt n
  · obtain ⟨n, rfl⟩ := hwhole
    rw [render_of_ofInt hv hvq, render_of_ofInt hw hwq]
  · -- Only doubles have other quantities, and these two are the same double.
    cases v with
    | integer n => exact absurd ⟨n, (Option.some.inj hvq).symm⟩ hwhole
    | double x =>
      cases w with
      | integer n => exact absurd ⟨n, (Option.some.inj hwq).symm⟩ hwhole
      | double y =>
        have hnone : x.toInt? = none := by
          refine Option.eq_none_iff_forall_ne_some.2 fun n hn => hwhole ⟨n, ?_⟩
          exact Option.some.inj (hvq.symm.trans (Double.toInt?_eq_some_iff.1 hn))
        rw [Double.eq_of_quantity? (isNaN_of_quantity? hvq) hnone (hvq.trans hwq.symm)]
      | _ => simp [kind] at hw
    | _ => simp [kind] at hv

/-- Absent values, truth values, numbers and texts that are the same are rendered alike, and so are
the foreign values whose classes bear these names. -/
theorem render_eq_of_same {v w : Value}
    (hkind : v.kind.text ∈ [Kind.null, .boolean, .number, .string].map Kind.text)
    (h : v.same w = true) : v.render = w.render := by
  obtain ⟨hsame, hnan, halike⟩ := same_iff.1 h
  cases hv : v.kind with
  | number =>
    have hw : w.kind = .number := hsame.symm.trans hv
    cases hq : v.quantity? with
    | some q =>
      rw [alike_of_quantity? hq, beq_iff_eq] at halike
      exact render_eq_of_quantity? hv hw hq halike
    | none =>
      -- A number without a quantity is not a number, and not the same as anything.
      cases v with
      | double x => cases x <;> simp_all [quantity?, Double.quantity?, isNaN, Double.isNaN]
      | _ => simp_all [quantity?, kind]
  | null => cases v <;> cases w <;> simp_all [kind]
  | boolean =>
    cases v with
    | boolean b =>
      cases w with
      | boolean c =>
        obtain rfl : c = b := Quantity.ofBool_inj.1 (by simpa [alike, quantity?] using halike)
        rfl
      | _ => simp [kind] at hsame
    | _ => simp [kind] at hv
  | string =>
    cases v with
    | string s => rw [(alike_string_iff s w).1 halike]
    | _ => simp [kind] at hv
  | foreign name =>
    cases v with
    | foreign x => rw [(alike_foreign_iff x w).1 halike]
    | _ => simp [kind] at hv
  | _ => simp [hv, Kind.text] at hkind

/-- A number that is rendered like a whole number is the same number. -/
theorem same_of_render_eq {v w : Value} (hv : v.isInteger = true) (hw : w.kind = .number)
    (h : v.render = w.render) : v.same w = true := by
  have hkind : v.kind = .number := by cases v <;> simp_all [isInteger, kind]
  obtain ⟨n, hvq⟩ := (isInteger_iff hkind).1 hv
  rw [render_of_ofInt hkind hvq] at h
  have hwq : w.quantity? = some (.ofInt n) := by
    cases w with
    | integer k =>
      obtain rfl : n = k := by simpa [render, display, literal, Int.repr_inj] using h
      rfl
    | double x =>
      cases hint : x.toInt? with
      | some k =>
        obtain rfl : n = k := by simpa [render, hint, Int.repr_inj] using h
        exact Double.toInt?_eq_some_iff.1 hint
      | none =>
        have htext : x.text = toString n := by simpa [render, hint] using h.symm
        exact absurd htext (x.text_ne_toString n)
    | _ => simp [kind] at hw
  have halike : v.alike w = true := by rw [alike_of_quantity? hvq, hwq, beq_self_eq_true]
  exact same_iff.2 ⟨hkind.trans hw.symm, isNaN_of_quantity? hvq, halike⟩

end Value

end ShapeSchema
