import Mathlib.Data.List.Forall2
import Mathlib.Data.List.Pairwise
import ShapeSchema.Proofs.Double.Quantity
import ShapeSchema.Value.Entries

/-!
# Equality of values is an equivalence

Containers regard values as one in a way that is reflexive, symmetric and transitive
(`Distinct.lawful`), and so is the equality of enumerations, but for what is not a number
(`same_self`, `same_symm`, `same_trans`).

The laws are proved of one value at a time, together: `Lawful v` says that `v` is alike to itself,
and that what it is alike to is alike to the same values. Symmetry and transitivity follow without a
further induction, and nothing need be assumed of the other values. The only steps that are not by
parts are those at objects and sets, where each key and each element has its counterpart among the
others, but the others may have more of them. They have not, because there are as many of them and
no two parts share a counterpart (`exists_of_pairwise`); for this no two keys may be alike, and
objects are built like that (`Entries.distinct_ofPairs`).
-/

namespace ShapeSchema

/-! ## Numbers -/

/-- A double that is a number is alike to the doubles of the same quantity. -/
theorem Double.alike_of_quantity? {x : Double} {q : Quantity} (hx : x.quantity? = some q)
    (y : Double) : x.alike y = (y.quantity? == some q) := by
  cases x with
  | nan => simp [quantity?] at hx
  | _ =>
    cases y with
    | nan => rfl
    | _ => rw [alike, hx, Bool.beq_comm] <;> simp

/-- Whatever is a double without being a number is nothing but itself. -/
theorem Double.alike_nan_iff {mark : Nat} {y : Double} :
    (Double.nan mark).alike y = true ↔ y = .nan mark := by
  cases y with
  | nan mark' => simpa [alike] using eq_comm
  | _ => simp [alike]

namespace Value

/-- A number is whole exactly when its quantity is that of an integer. -/
theorem isInteger_iff {v : Value} (h : v.kind = .number) :
    v.isInteger = true ↔ ∃ n : Int, v.quantity? = some (.ofInt n) := by
  cases v with
  | integer n => simp [isInteger, quantity?]
  | double x => exact x.isIntegral_iff
  | _ => simp [kind] at h

/-- What has a quantity is alike to whatever has the same one. -/
theorem alike_of_quantity? {v : Value} {q : Quantity} (hq : v.quantity? = some q) (w : Value) :
    v.alike w = (w.quantity? == some q) := by
  cases v with
  | boolean b =>
    obtain rfl : Quantity.ofBool b = q := by simpa [quantity?] using hq
    rfl
  | integer n =>
    obtain rfl : Quantity.ofInt n = q := by simpa [quantity?] using hq
    rfl
  | double x =>
    have hx : x.quantity? = some q := hq
    cases w with
    | double y => exact Double.alike_of_quantity? hx y
    | _ => simp [alike, hx]
  | _ => simp [quantity?] at hq

/-- What has a quantity is not something that is not a number. -/
theorem isNaN_of_quantity? {v : Value} {q : Quantity} (h : v.quantity? = some q) :
    v.isNaN = false := by
  cases v with
  | double x => cases x <;> simp_all [quantity?, Double.quantity?, isNaN, Double.isNaN]
  | _ => rfl

/-! ## Containers -/

/-- Sequences are alike if their elements are, position by position. -/
theorem alikeAll_iff {items others : List Value} :
    alikeAll items others = true ↔
      List.Forall₂ (fun v w => v.alike w = true) items others := by
  induction items generalizing others with
  | nil => simp [alikeAll, List.isEmpty_iff]
  | cons v vs ih =>
    cases others with
    | nil => simp [alikeAll]
    | cons w ws => rw [alikeAll, Bool.and_eq_true, ih, List.forall₂_cons]

/-- Sequences are alike to the same if their elements are. -/
theorem alikeAll_congr {items items' : List Value}
    (h : List.Forall₂ (fun v v' => ∀ w, v.alike w = v'.alike w) items items') (ws : List Value) :
    alikeAll items ws = alikeAll items' ws := by
  induction h generalizing ws with
  | nil => rfl
  | cons hfirst _ ih =>
    cases ws with
    | nil => rfl
    | cons w ws => rw [alikeAll, alikeAll, hfirst, ih]

/-- Each element has one alike to it among the others. -/
theorem alikeElements_eq_all (elements others : List Value) :
    alikeElements elements others = elements.all fun v => others.any v.alike := by
  induction elements with
  | nil => rfl
  | cons v rest ih => rw [alikeElements, ih, List.all_cons]

/-- Each entry has one with an alike key among the others, and an alike item there. -/
theorem alikeEntries_eq_all (entries others : List (Value × Value)) :
    alikeEntries entries others = entries.all fun e =>
      (others.find? fun o => e.1.alike o.1).any fun o => e.2.alike o.2 := by
  induction entries with
  | nil => rfl
  | cons e rest ih =>
    rw [alikeEntries, ih, List.all_cons]
    cases others.find? fun o => e.1.alike o.1 <;> rfl

/-- What is asked of all elements is asked of all that correspond to them. -/
theorem all_congr {α β : Type} {p : α → Bool} {q : β → Bool} {as : List α} {bs : List β}
    (h : List.Forall₂ (fun a b => p a = q b) as bs) : as.all p = bs.all q := by
  induction h with
  | nil => rfl
  | cons hfirst _ ih => rw [List.all_cons, List.all_cons, hfirst, ih]

/-- What is asked of all elements of a list is asked of all elements of another, if each element of
either list has a counterpart in the other, of which the same is asked. -/
theorem all_eq_all {α β : Type} {R : α → β → Prop} {p : α → Bool} {q : β → Bool} {as : List α}
    {bs : List β} (hleft : ∀ a ∈ as, ∃ b ∈ bs, R a b) (hright : ∀ b ∈ bs, ∃ a ∈ as, R a b)
    (h : ∀ a ∈ as, ∀ b, R a b → p a = q b) : as.all p = bs.all q := by
  rw [Bool.eq_iff_iff, List.all_eq_true, List.all_eq_true]
  constructor
  · intro hall b hb
    obtain ⟨a, ha, hab⟩ := hright b hb
    rw [← h a ha b hab]
    exact hall a ha
  · intro hall a ha
    obtain ⟨b, hb, hab⟩ := hleft a ha
    rw [h a ha b hab]
    exact hall b hb

/-- If each element of a list has a counterpart in another list of the same length, and no two share
one, then nothing in the other list is left over. -/
theorem exists_of_pairwise {α β : Type} {R : α → β → Prop} {as : List α} {bs : List β}
    (hlength : as.length = bs.length) (h : ∀ a ∈ as, ∃ b ∈ bs, R a b)
    (distinct : as.Pairwise fun a a' => ∀ b, R a b → ¬R a' b) : ∀ b ∈ bs, ∃ a ∈ as, R a b := by
  induction as generalizing bs with
  | nil =>
    intro b hb
    rw [List.eq_nil_of_length_eq_zero hlength.symm] at hb
    exact absurd hb List.not_mem_nil
  | cons a rest ih =>
    obtain ⟨hfirst, hrest⟩ := List.forall_mem_cons.1 h
    obtain ⟨hother, hdistinct⟩ := List.pairwise_cons.1 distinct
    -- What the other elements correspond to is still there without the counterpart of the first.
    obtain ⟨b, hb, hab⟩ := hfirst
    obtain ⟨before, after, rfl⟩ := List.append_of_mem hb
    have hlength' : rest.length = (before ++ after).length := by
      simp only [List.length_append, List.length_cons] at hlength ⊢
      omega
    have hrest' : ∀ a' ∈ rest, ∃ b' ∈ before ++ after, R a' b' := by
      intro a' ha'
      obtain ⟨b', hb', hab'⟩ := hrest a' ha'
      refine ⟨b', ?_, hab'⟩
      rcases List.mem_append.1 hb' with hmem | hmem
      · exact List.mem_append_left _ hmem
      · rcases List.mem_cons.1 hmem with rfl | hmem
        · exact absurd hab' (hother a' ha' _ hab)
        · exact List.mem_append_right _ hmem
    intro b' hb'
    by_cases heq : b' = b
    · exact ⟨a, List.mem_cons_self, heq ▸ hab⟩
    · have hmem : b' ∈ before ++ after := by simpa [heq] using hb'
      obtain ⟨a', ha', hab'⟩ := ih hlength' hrest' hdistinct b' hmem
      exact ⟨a', List.mem_cons_of_mem a ha', hab'⟩

/-! ## The laws -/

/-- The value is alike to itself, and what it is alike to is alike to the same values. -/
structure Lawful (v : Value) : Prop where
  /-- It is alike to itself. -/
  refl : v.alike v = true
  /-- What it is alike to is alike to the same values. -/
  congr : ∀ w, v.alike w = true → ∀ u, v.alike u = w.alike u

namespace Lawful

variable {v w u : Value}

/-- What a value is alike to is alike to the value. -/
theorem symm (hv : Lawful v) (h : v.alike w = true) : w.alike v = true := by
  rw [← hv.congr w h]
  exact hv.refl

/-- A value is alike to what it is alike to by way of another one. -/
theorem trans (hv : Lawful v) (h : v.alike w = true) (h' : w.alike u = true) :
    v.alike u = true := by
  rw [hv.congr w h]
  exact h'

/-- Values that are alike to the same one are alike. -/
theorem alike_of_alike (hv : Lawful v) (hw : Lawful w) (h : v.alike u = true)
    (h' : w.alike u = true) : v.alike w = true :=
  hv.trans h (hw.symm h')

/-- The laws hold of what is alike to nothing but itself. -/
theorem of_eq (h : ∀ w, v.alike w = true ↔ w = v) : Lawful v where
  refl := (h v).2 rfl
  congr w hw u := by rw [(h w).1 hw]

/-- The laws hold of what has a quantity. -/
theorem of_quantity? {q : Quantity} (hq : v.quantity? = some q) : Lawful v where
  refl := by rw [alike_of_quantity? hq, hq, beq_self_eq_true]
  congr w h u := by
    rw [alike_of_quantity? hq, beq_iff_eq] at h
    rw [alike_of_quantity? hq, alike_of_quantity? h]

/-- The laws hold of a double. -/
theorem double (x : Double) : Lawful (.double x) := by
  cases x with
  | nan mark =>
    refine of_eq fun w => ?_
    cases w with
    | double y => simp only [alike, Double.alike_nan_iff, Value.double.injEq]
    | _ => simp [alike, Double.quantity?]
  | infinite negative => exact of_quantity? rfl
  | finite negative m e canonical => exact of_quantity? rfl

/-- If the laws hold of the elements of a sequence, the sequence is alike to itself. -/
theorem alikeAll_self {items : List Value} (h : ∀ v ∈ items, Lawful v) :
    alikeAll items items = true :=
  alikeAll_iff.2 (List.forall₂_same.2 fun v hv => (h v hv).refl)

/-- If the laws hold of the elements of a sequence, what it is alike to is alike to the same
sequences. -/
theorem alikeAll_eq {items others : List Value} (h : ∀ v ∈ items, Lawful v)
    (halike : alikeAll items others = true) (us : List Value) :
    alikeAll items us = alikeAll others us := by
  obtain ⟨hlength, hparts⟩ := List.forall₂_iff_zip.1 (alikeAll_iff.1 halike)
  exact alikeAll_congr (List.forall₂_iff_zip.2
    ⟨hlength, fun hp => (h _ (List.of_mem_zip hp).1).congr _ (hparts hp)⟩) us

/-- The laws hold of a list if they hold of its elements. -/
theorem list {items : List Value} (h : ∀ v ∈ items, Lawful v) : Lawful (.list items) where
  refl := alikeAll_self h
  congr w hw u := by
    cases w with
    | list others =>
      cases u with
      | list us => exact alikeAll_eq h hw us
      | _ => rfl
    | _ => exact absurd hw (by simp [alike])

/-- The laws hold of a tuple if they hold of its elements. -/
theorem tuple {items : List Value} (h : ∀ v ∈ items, Lawful v) : Lawful (.tuple items) where
  refl := alikeAll_self h
  congr w hw u := by
    cases w with
    | tuple others =>
      cases u with
      | tuple us => exact alikeAll_eq h hw us
      | _ => rfl
    | _ => exact absurd hw (by simp [alike])

/-- The laws hold of a set of distinct elements if they hold of these. -/
theorem set {elements : List Value} (distinct : elements.Pairwise fun v w => v.alike w = false)
    (h : ∀ v ∈ elements, Lawful v) : Lawful (.set elements) where
  refl := by
    rw [alike, alikeElements_eq_all, beq_self_eq_true, Bool.true_and, List.all_eq_true]
    exact fun v hv => List.any_eq_true.2 ⟨v, hv, (h v hv).refl⟩
  congr w hw u := by
    cases w with
    | set others =>
      rw [alike, alikeElements_eq_all, Bool.and_eq_true, beq_iff_eq] at hw
      obtain ⟨hlength, hall⟩ := hw
      have hleft : ∀ v ∈ elements, ∃ o ∈ others, v.alike o = true := fun v hv =>
        List.any_eq_true.1 (List.all_eq_true.1 hall v hv)
      have hright := exists_of_pairwise hlength hleft <|
        distinct.imp_of_mem fun {v v'} hv hv' hne o ho ho' =>
          Bool.false_ne_true (hne.symm.trans ((h v hv).alike_of_alike (h v' hv') ho ho'))
      cases u with
      | set us =>
        have hsame : (elements.all fun v => us.any v.alike) = others.all fun o => us.any o.alike :=
          all_eq_all hleft hright fun v hv o ho => by rw [funext ((h v hv).congr o ho)]
        rw [alike, alike, alikeElements_eq_all, alikeElements_eq_all, hlength, hsame]
      | _ => rfl
    | _ => exact absurd hw (by simp [alike])

/-- Entries of an object with alike keys are one entry. -/
theorem eq_of_alike_keys {entries : List (Value × Value)}
    (distinct : entries.Pairwise fun e e' => e.1.alike e'.1 = false)
    (hkeys : ∀ e ∈ entries, Lawful e.1) {e o : Value × Value} (he : e ∈ entries)
    (ho : o ∈ entries) (halike : e.1.alike o.1 = true) : e = o := by
  have hsymm : Std.Symm fun e e' : Value × Value =>
      e.1.alike e'.1 = false ∧ e'.1.alike e.1 = false := ⟨fun _ _ h => h.symm⟩
  have hboth : entries.Pairwise fun e e' => e.1.alike e'.1 = false ∧ e'.1.alike e.1 = false :=
    distinct.imp_of_mem fun {e e'} he he' hne =>
      ⟨hne, Bool.eq_false_iff.2 fun h => by simp [(hkeys e' he').symm h] at hne⟩
  by_contra hne
  simp [(hboth.forall he ho hne).1] at halike

/-- The laws hold of an object of distinct keys if they hold of these and of the items. -/
theorem object {entries : List (Value × Value)}
    (distinct : entries.Pairwise fun e e' => e.1.alike e'.1 = false)
    (hkeys : ∀ e ∈ entries, Lawful e.1) (hitems : ∀ e ∈ entries, Lawful e.2) :
    Lawful (.object entries) where
  refl := by
    rw [alike, alikeEntries_eq_all, beq_self_eq_true, Bool.true_and, List.all_eq_true]
    intro e he
    obtain ⟨o, ho⟩ : ∃ o, entries.find? (fun o => e.1.alike o.1) = some o :=
      Option.isSome_iff_exists.1 (List.find?_isSome.2 ⟨e, he, (hkeys e he).refl⟩)
    -- What is found under the key of an entry is that entry.
    have hfound : e = o := eq_of_alike_keys distinct hkeys he (List.mem_of_find?_eq_some ho)
      (by simpa using List.find?_some ho)
    rw [ho, ← hfound]
    exact (hitems e he).refl
  congr w hw u := by
    cases w with
    | object others =>
      rw [alike, alikeEntries_eq_all, Bool.and_eq_true, beq_iff_eq] at hw
      obtain ⟨hlength, hall⟩ := hw
      have hleft : ∀ e ∈ entries, ∃ o ∈ others, e.1.alike o.1 = true ∧ e.2.alike o.2 = true := by
        intro e he
        obtain ⟨o, ho, hitem⟩ := (Option.any_eq_true _ _).1 (List.all_eq_true.1 hall e he)
        exact ⟨o, List.mem_of_find?_eq_some ho, by simpa using List.find?_some ho, hitem⟩
      have hright := exists_of_pairwise hlength hleft <|
        distinct.imp_of_mem fun {e e'} he he' hne o ho ho' =>
          Bool.false_ne_true
            (hne.symm.trans ((hkeys e he).alike_of_alike (hkeys e' he') ho.1 ho'.1))
      cases u with
      | object us =>
        have hsame : (entries.all fun e =>
              (us.find? fun o => e.1.alike o.1).any fun o => e.2.alike o.2) =
            others.all fun e => (us.find? fun o => e.1.alike o.1).any fun o => e.2.alike o.2 :=
          all_eq_all hleft hright fun e he o ho => by
            rw [funext ((hkeys e he).congr _ ho.1), funext ((hitems e he).congr _ ho.2)]
        rw [alike, alike, alikeEntries_eq_all, alikeEntries_eq_all, hlength, hsame]
      | _ => rfl
    | _ => exact absurd hw (by simp [alike])

end Lawful

/-- The laws hold of a value in which keys and elements of sets are told apart. -/
theorem Distinct.lawful {v : Value} (h : v.Distinct) : Lawful v := by
  induction h with
  | @scalar v hitems hentries hset =>
    cases v with
    | null => exact .of_eq fun w => by cases w <;> simp [alike, isNull]
    | boolean b => exact .of_quantity? rfl
    | integer n => exact .of_quantity? rfl
    | double x => exact .double x
    | string s => exact .of_eq (alike_string_iff s)
    | octets bs =>
      refine .of_eq fun w => ?_
      cases w with
      | octets cs => simpa [alike] using eq_comm
      | _ => simp [alike]
    | set => exact absurd rfl hset
    | missing => exact .of_eq fun w => by cases w <;> simp [alike]
    | foreign x => exact .of_eq (alike_foreign_iff x)
    | _ => simp_all [items?, entries?]
  | @sequence v items hitems _ ih =>
    cases v with
    | list => exact .list (by simp_all [items?])
    | tuple => exact .tuple (by simp_all [items?])
    | _ => simp [items?] at hitems
  | object distinct _ _ hkeys hitems => exact .object distinct hkeys hitems
  | set distinct _ ih => exact .set distinct ih

/-! ## Kinds -/

/-- What has no quantity is alike only to values of its own kind, and if it is not a number then
neither are they. -/
theorem kind_eq_of_alike {v w : Value} (hq : v.quantity? = none) (h : v.alike w = true) :
    v.kind = w.kind ∧ v.isNaN = w.isNaN := by
  cases v with
  | double x =>
    -- The one double without a quantity is alike to nothing but itself.
    cases x with
    | nan mark =>
      cases w with
      | double y =>
        rw [Double.alike_nan_iff.1 h]
        exact ⟨rfl, rfl⟩
      | _ => simp [alike, Double.quantity?] at h
    | _ => simp [quantity?, Double.quantity?] at hq
  | _ => cases w <;> simp_all [quantity?, alike, kind, isNaN, isNull]

/-- What is alike to something that is not a number is not a number either, and the other way
round. -/
theorem isNaN_eq_of_alike {v w : Value} (h : v.alike w = true) : v.isNaN = w.isNaN := by
  cases hq : v.quantity? with
  | some q =>
    rw [alike_of_quantity? hq, beq_iff_eq] at h
    rw [isNaN_of_quantity? hq, isNaN_of_quantity? h]
  | none => exact (kind_eq_of_alike hq h).2

/-- Values that are alike are of one kind, or one of them is a truth value and the other a
number. -/
theorem kind_of_alike {v w : Value} (h : v.alike w = true) :
    v.kind = w.kind ∨ (v.kind = .boolean ∧ w.kind = .number) ∨
      (v.kind = .number ∧ w.kind = .boolean) := by
  cases hq : v.quantity? with
  | some q =>
    have hkind {u : Value} {q : Quantity} (h : u.quantity? = some q) :
        u.kind = .boolean ∨ u.kind = .number := by
      cases u <;> simp_all [quantity?, kind]
    rw [alike_of_quantity? hq, beq_iff_eq] at h
    rcases hkind hq with hv | hv <;> rcases hkind h with hw | hw <;> simp [hv, hw]
  | none => exact .inl (kind_eq_of_alike hq h).1

/-- The kinds of values that are alike are told apart by their names. -/
theorem kind_text_eq_iff_of_alike {v w : Value} (h : v.alike w = true) :
    v.kind.text = w.kind.text ↔ v.kind = w.kind := by
  -- Foreign classes may bear the name of a kind, but what is foreign is alike to no other kind.
  rcases kind_of_alike h with hkind | ⟨hv, hw⟩ | ⟨hv, hw⟩
  · simp [hkind]
  · rw [hv, hw]
    decide
  · rw [hv, hw]
    decide

/-! ## The equality of enumerations -/

/-- Values are the same if they are of one kind and alike, but what is not a number is the same as
nothing. -/
theorem same_iff {v w : Value} :
    v.same w = true ↔ v.kind = w.kind ∧ v.isNaN = false ∧ v.alike w = true := by
  rw [same, equal, Bool.and_eq_true, Bool.and_eq_true, Bool.not_eq_true', beq_iff_eq]
  exact and_congr_left fun h => kind_text_eq_iff_of_alike h.2

/-- Values are the same together. -/
theorem same_symm {v w : Value} (hv : v.Distinct) (h : v.same w = true) : w.same v = true := by
  obtain ⟨hkind, hnan, halike⟩ := same_iff.1 h
  exact same_iff.2 ⟨hkind.symm, isNaN_eq_of_alike halike ▸ hnan, hv.lawful.symm halike⟩

/-- A value is the same as what the same value is the same as. -/
theorem same_trans {v w u : Value} (hv : v.Distinct) (h : v.same w = true)
    (h' : w.same u = true) : v.same u = true := by
  obtain ⟨hkind, hnan, halike⟩ := same_iff.1 h
  obtain ⟨hkind', -, halike'⟩ := same_iff.1 h'
  exact same_iff.2 ⟨hkind.trans hkind', hnan, hv.lawful.trans halike halike'⟩

/-- A value is the same as itself, unless it is not a number. -/
theorem same_self {v : Value} (hv : v.Distinct) (hnan : v.isNaN = false) : v.same v = true :=
  same_iff.2 ⟨rfl, hnan, hv.lawful.refl⟩

end Value

/-! ## Building objects -/

namespace Entries

variable {α : Type}

/-- What holds of the keys and of the items holds of them after an insertion. -/
theorem forall_mem_insert {P : Value → Prop} {Q : α → Prop} {entries : List (Value × α)}
    {key : Value} {item : α} (h : ∀ e ∈ entries, P e.1 ∧ Q e.2) (hkey : P key) (hitem : Q item) :
    ∀ e ∈ insert entries key item, P e.1 ∧ Q e.2 := by
  induction entries with
  | nil =>
    intro e he
    rw [List.mem_singleton.1 he]
    exact ⟨hkey, hitem⟩
  | cons e rest ih =>
    obtain ⟨hfirst, hrest⟩ := List.forall_mem_cons.1 h
    rw [insert]
    split
    · exact List.forall_mem_cons.2 ⟨⟨hfirst.1, hitem⟩, hrest⟩
    · exact List.forall_mem_cons.2 ⟨hfirst, ih hrest⟩

/-- An insertion keeps keys apart. -/
theorem pairwise_insert {entries : List (Value × α)} {key : Value} (item : α)
    (distinct : entries.Pairwise fun e e' => e.1.alike e'.1 = false)
    (hkeys : ∀ e ∈ entries, e.1.Lawful) :
    (insert entries key item).Pairwise fun e e' => e.1.alike e'.1 = false := by
  induction entries with
  | nil => exact List.pairwise_singleton _ _
  | cons e rest ih =>
    obtain ⟨hfirst, hrest⟩ := List.pairwise_cons.1 distinct
    obtain ⟨hlawful, hkeys⟩ := List.forall_mem_cons.1 hkeys
    rw [insert]
    split
    · exact List.pairwise_cons.2 ⟨hfirst, hrest⟩
    · rename_i halike
      have hkey : e.1.alike key = false := Bool.eq_false_iff.2 fun h => halike (hlawful.symm h)
      have hinserted : ∀ o ∈ insert rest key item, e.1.alike o.1 = false ∧ True :=
        forall_mem_insert (P := fun k => e.1.alike k = false) (Q := fun _ => True)
          (fun o ho => ⟨hfirst o ho, trivial⟩) hkey trivial
      exact List.pairwise_cons.2 ⟨fun o ho => (hinserted o ho).1, ih hrest hkeys⟩

/-- An object stays what it has to be when an item is put into it. -/
theorem distinct_insert {entries : List (Value × Value)} {key item : Value}
    (h : (Value.object entries).Distinct) (hkey : key.Distinct) (hitem : item.Distinct) :
    (Value.object (insert entries key item)).Distinct := by
  cases h with
  | object distinct keys items =>
    have hparts := forall_mem_insert (fun e he => ⟨keys e he, items e he⟩) hkey hitem
    exact .object (pairwise_insert item distinct fun e he => (keys e he).lawful)
      (fun e he => (hparts e he).1) fun e he => (hparts e he).2
  | scalar _ hentries => simp [Value.entries?] at hentries
  | sequence hitems => simp [Value.items?] at hitems

/-- Whatever pairs an object is built from, its keys are told apart. -/
theorem distinct_ofPairs {pairs : List (Value × Value)} (hkeys : ∀ e ∈ pairs, e.1.Distinct)
    (hitems : ∀ e ∈ pairs, e.2.Distinct) : (Value.object (ofPairs pairs)).Distinct := by
  have hempty : (Value.object []).Distinct := .object .nil (by simp) (by simp)
  rw [ofPairs]
  generalize ([] : List (Value × Value)) = entries at hempty
  induction pairs generalizing entries with
  | nil => exact hempty
  | cons e rest ih =>
    obtain ⟨hkey, hkeys⟩ := List.forall_mem_cons.1 hkeys
    obtain ⟨hitem, hitems⟩ := List.forall_mem_cons.1 hitems
    exact ih hkeys hitems _ (distinct_insert hempty hkey hitem)

end Entries

end ShapeSchema
