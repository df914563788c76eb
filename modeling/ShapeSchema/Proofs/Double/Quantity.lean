import Mathlib.Tactic.Positivity
import Mathlib.Tactic.Ring
import ShapeSchema.Double.Basic

/-!
# What a double amounts to

The quantity of a double tells which integer it is equal to, if it is equal to one
(`Double.toInt?_eq_some_iff`), and of all else that is not zero it tells the double itself
(`Double.eq_of_quantity?`): a significand that could be doubled is too small for any exponent but
the least one.

Quantities are compared as natural numbers of units of `2 ^ (-1074)`, of which every double is a
multiple (`Double.magnitude_units`).
-/

namespace ShapeSchema

/-- The product with a natural number has the sign of the first factor. -/
theorem signed_mul (negative : Bool) (a b : Nat) :
    signed negative (a * b) = signed negative a * b := by
  cases negative <;> simp [signed]

/-- A natural number with a sign tells the number, and unless that is zero it tells the sign. -/
theorem signed_eq_signed {negative negative' : Bool} {a b : Nat}
    (h : signed negative a = signed negative' b) : a = b ∧ (a ≠ 0 → negative = negative') := by
  constructor
  · cases negative <;> cases negative' <;> simp [signed] at h <;> omega
  · intro ha
    cases negative <;> cases negative' <;> simp [signed] at h ⊢ <;> omega

/-- Integers are told apart by their quantities. -/
theorem Quantity.ofInt_inj {n k : Int} : Quantity.ofInt n = .ofInt k ↔ n = k := by
  simp [ofInt]

/-- Truth values are told apart by their quantities. -/
theorem Quantity.ofBool_inj {b c : Bool} : Quantity.ofBool b = .ofBool c ↔ b = c := by
  cases b <;> cases c <;> simp [ofBool, ofInt_inj]

namespace Double

/-- The denominator of a magnitude is positive. -/
theorem magnitude_den_pos (m : Nat) (e : Int) : 0 < (magnitude m e).den :=
  Ratio.scale_den_pos (by decide) e Nat.one_pos

/-- A magnitude in units of `2 ^ (-k)`. -/
theorem magnitude_units (m : Nat) {e : Int} {k : Nat} (h : 0 ≤ e + k) :
    (magnitude m e).num * 2 ^ k = m * 2 ^ (e + k).toNat * (magnitude m e).den := by
  rw [magnitude, Ratio.scale]
  split
  · have hsum : (e + k).toNat = e.toNat + k := by omega
    simp only [Ratio.ofNat, Nat.pow_eq, hsum, pow_add]
    ring
  · have hsum : k = (e + k).toNat + (-e).toNat := by omega
    simp only [Ratio.ofNat, Nat.pow_eq]
    nth_rewrite 1 [hsum]
    rw [pow_add]
    ring

/-- The rational that a finite double stands for is an integer exactly when the magnitude is that
many units. -/
theorem rational_eq_int_iff {negative : Bool} {m : Nat} {e n : Int} :
    rational negative m e = n ↔
      signed negative (magnitude m e).num = n * (magnitude m e).den := by
  have hden := magnitude_den_pos m e
  rw [rational, ← Rat.mkRat_one n, Rat.mkRat_eq_iff (by omega) (by decide)]
  simp

/-- The integer that a double is equal to is the one with the same quantity. -/
theorem toInt?_eq_some_iff {x : Double} {n : Int} :
    x.toInt? = some n ↔ x.quantity? = some (.ofInt n) := by
  cases x with
  | nan => simp [toInt?, quantity?]
  | infinite => simp [toInt?, quantity?, Quantity.ofInt]
  | finite negative m e canonical =>
    have hden := magnitude_den_pos m e
    simp only [toInt?, quantity?, Quantity.ofInt, Option.some.injEq, Quantity.finite.injEq,
      rational_eq_int_iff, Option.ite_none_right_eq_some, Ratio.isNatural, Ratio.floor,
      beq_iff_eq]
    generalize (magnitude m e).num = num, (magnitude m e).den = den at hden
    have hpos : (den : Int) ≠ 0 := by omega
    constructor
    · rintro ⟨hmod, rfl⟩
      rw [← signed_mul, Nat.div_mul_cancel (Nat.dvd_of_mod_eq_zero hmod)]
    · intro h
      have hdvd : den ∣ num := by
        have hn : (den : Int) ∣ signed negative num := Dvd.intro_left n h.symm
        cases negative with
        | true => exact Int.natCast_dvd_natCast.1 ((Int.dvd_neg).1 hn)
        | false => exact Int.natCast_dvd_natCast.1 hn
      refine ⟨Nat.mod_eq_zero_of_dvd hdvd, ?_⟩
      rw [← Nat.div_mul_cancel hdvd, signed_mul] at h
      exact Int.eq_of_mul_eq_mul_right hpos h

/-- A double has no fractional part exactly when its quantity is that of an integer. -/
theorem isIntegral_iff (x : Double) :
    x.isIntegral = true ↔ ∃ n : Int, x.quantity? = some (.ofInt n) := by
  rw [isIntegral, Option.isSome_iff_exists]
  simp only [toInt?_eq_some_iff]

/-- Canonical forms with the same quantity are the same number of units of the least exponent. -/
theorem units_of_rational_eq {negative negative' : Bool} {m m' : Nat} {e e' : Int} {k : Nat}
    (he : 0 ≤ e + k) (he' : 0 ≤ e' + k)
    (h : rational negative m e = rational negative' m' e') :
    signed negative (m * 2 ^ (e + k).toNat) = signed negative' (m' * 2 ^ (e' + k).toNat) := by
  have hden := magnitude_den_pos m e
  have hden' := magnitude_den_pos m' e'
  have hunits := magnitude_units m he
  have hunits' := magnitude_units m' he'
  rw [rational, rational, Rat.mkRat_eq_iff (by omega) (by omega)] at h
  generalize (magnitude m e).num = num, (magnitude m e).den = den at *
  generalize (magnitude m' e').num = num', (magnitude m' e').den = den' at *
  -- Both sides of the equation of fractions in units.
  have hpos : ((den * den' : Nat) : Int) ≠ 0 := by positivity
  refine Int.eq_of_mul_eq_mul_right hpos ?_
  calc signed negative (m * 2 ^ (e + k).toNat) * ((den * den' : Nat) : Int)
      = signed negative (num * 2 ^ k) * den' := by rw [hunits, signed_mul _ _ den]; push_cast; ring
    _ = signed negative num * den' * (2 ^ k : Nat) := by rw [signed_mul]; ring
    _ = signed negative' num' * den * (2 ^ k : Nat) := by rw [h]
    _ = signed negative' (num' * 2 ^ k) * den := by rw [signed_mul]; ring
    _ = signed negative' (m' * 2 ^ (e' + k).toNat) * ((den * den' : Nat) : Int) := by
        rw [hunits', signed_mul _ _ den']; push_cast; ring

/-- Of two canonical forms with as many units the exponent of the second is no larger. -/
theorem Canonical.le_of_units_eq {m m' : Nat} {e e' : Int} (h : Canonical m e)
    (h' : Canonical m' e') (hunits : m * 2 ^ (e + 1074).toNat = m' * 2 ^ (e' + 1074).toNat) :
    e' ≤ e := by
  obtain ⟨hlt, hleast, -⟩ := h
  obtain ⟨-, -, -, hfull⟩ := h'
  by_contra hgt
  -- The exponent of the second form is not the least one, so that its significand is full.
  have hfull : fullSignificand ≤ m' := hfull.resolve_right (by omega)
  obtain ⟨d, hd⟩ : ∃ d, (e' + 1074).toNat = (e + 1074).toNat + (d + 1) :=
    ⟨(e' - e - 1).toNat, by omega⟩
  rw [hd, pow_add, mul_left_comm, mul_comm] at hunits
  have hm : m = m' * 2 ^ (d + 1) := Nat.eq_of_mul_eq_mul_left (by positivity) hunits
  have htwo : m' * 2 ≤ m' * 2 ^ (d + 1) := by
    rw [pow_succ]
    exact Nat.mul_le_mul_left m' (Nat.le_mul_of_pos_left 2 (by positivity))
  simp only [significandEnd, fullSignificand] at hlt hfull
  omega

/-- The rational that a canonical form stands for tells the form, unless it is zero. -/
theorem eq_of_rational_eq {negative negative' : Bool} {m m' : Nat} {e e' : Int}
    (h : Canonical m e) (h' : Canonical m' e') (hm : m ≠ 0)
    (heq : rational negative m e = rational negative' m' e') :
    negative = negative' ∧ m = m' ∧ e = e' := by
  have hleast {m : Nat} {e : Int} (h : Canonical m e) : 0 ≤ e + (1074 : Nat) := by
    have hleast : -1074 ≤ e := h.2.1
    omega
  obtain ⟨hunits, hsign⟩ := signed_eq_signed (units_of_rational_eq (hleast h) (hleast h') heq)
  have he : e = e' := le_antisymm (h'.le_of_units_eq h hunits.symm) (h.le_of_units_eq h' hunits)
  subst he
  exact ⟨hsign (by positivity), Nat.eq_of_mul_eq_mul_right (by positivity) hunits, rfl⟩

/-- Zero is whole. -/
theorem toInt?_zero (negative : Bool) {e : Int} (canonical : Canonical 0 e) :
    (finite negative 0 e canonical).toInt? = some 0 := by
  have hnum : (magnitude 0 e).num = 0 := by
    rw [magnitude, Ratio.scale]
    split <;> simp [Ratio.ofNat]
  cases negative <;> simp [toInt?, Ratio.isNatural, Ratio.floor, hnum, signed]

/-- Doubles of the same quantity are one double, unless they are whole. -/
theorem eq_of_quantity? {x y : Double} (hnan : x.isNaN = false) (hwhole : x.toInt? = none)
    (h : x.quantity? = y.quantity?) : x = y := by
  cases x with
  | nan => simp [isNaN] at hnan
  | infinite negative =>
    cases y with
    | infinite negative' => simpa [quantity?] using h
    | _ => simp [quantity?] at h
  | finite negative m e canonical =>
    cases y with
    | finite negative' m' e' canonical' =>
      have hm : m ≠ 0 := by
        rintro rfl
        simp [toInt?_zero] at hwhole
      have hq : rational negative m e = rational negative' m' e' := by simpa [quantity?] using h
      obtain ⟨rfl, rfl, rfl⟩ := eq_of_rational_eq canonical canonical' hm hq
      rfl
    | _ => simp [quantity?] at h

end Double

end ShapeSchema
