import ShapeSchema.Location
import ShapeSchema.Proofs.Value.Rendering

/-!
# Paths tell locations apart

Two lists of plain steps with one path behind the empty start path are the same list
(`Location.path_inj`). Nothing stands in front of a first key, and so a path cannot be read step by
step from its beginning; but `Location.flatMap_suffix_eq` puts the missing dot back, and then each
step is written in one way (`Step.suffix`). What a step has written is told from what the next steps
write because it goes on to the first character that is not of its class: a plain key up to a dot or
an opening bracket, the digits of an index up to the closing one (`append_inj_of_stop`).

Steps lead to one place only (`Value.LeadsTo.unique`), if no two keys of an object are alike, and in
a value with plain keys all steps that lead anywhere are plain (`Value.LeadsTo.isPlain`).
-/

namespace ShapeSchema

/-- Two texts, each followed by something that begins in another class of characters than the text
is of, are told from what follows them. -/
theorem append_inj_of_stop {p : Char → Bool} {xs ys rest rest' : List Char}
    (hxs : ∀ c ∈ xs, p c = true) (hys : ∀ c ∈ ys, p c = true)
    (hrest : ∀ c ∈ rest.head?, p c = false) (hrest' : ∀ c ∈ rest'.head?, p c = false)
    (h : xs ++ rest = ys ++ rest') : xs = ys ∧ rest = rest' := by
  have hfront {xs rest : List Char} (hxs : ∀ c ∈ xs, p c = true)
      (hrest : ∀ c ∈ rest.head?, p c = false) : (xs ++ rest).takeWhile p = xs := by
    rw [List.takeWhile_append_of_pos hxs]
    cases rest with
    | nil => rw [List.takeWhile_nil, List.append_nil]
    | cons c rest => simp [hrest c rfl]
  obtain rfl : xs = ys := by rw [← hfront hxs hrest, h, hfront hys hrest']
  exact ⟨rfl, List.append_cancel_left h⟩

/-! ## Steps in writing -/

namespace Step

variable {s s' : Step}

/-- What a step adds to a path that is not empty. -/
def suffix : Step → List Char
  | .key k => '.' :: k.display.toList
  | .index i => '[' :: ((toString (i : Int)).toList ++ [']'])

/-- A plain key is a text that has a first character, and neither sign with which a path goes on. -/
theorem isPlain_key_iff {key : Value} :
    (Step.key key).isPlain = true ↔
      ∃ t, key = .string t ∧ t ≠ "" ∧ ∀ c ∈ t.toList, (c != '.' && c != '[') = true := by
  cases key <;> simp [isPlain, Value.isPlainKey]

/-- One step further a path is not empty, if the step is plain. -/
theorem extend_ne_empty {path : String} (h : path ≠ "" ∨ s.isPlain = true) :
    s.extend path ≠ "" := by
  cases s with
  | index i => simp [extend, indexPath]
  | key key =>
    rw [extend, keyPath]
    split
    · rename_i hempty
      have hpath : path = "" := by simpa using hempty
      obtain ⟨t, rfl, ht, -⟩ := isPlain_key_iff.1 (h.resolve_left fun hne => hne hpath)
      exact ht
    · simp

/-- One step further a path that is not empty has the step in writing behind it. -/
theorem toList_extend {path : String} (h : path ≠ "") (s : Step) :
    (s.extend path).toList = path.toList ++ s.suffix := by
  cases s with
  | index i => simp [extend, indexPath, suffix]
  | key key => simp [extend, keyPath, suffix, h]

end Step

namespace Location

variable {steps steps' : Location}

/-- A path that is not empty goes on with the steps in writing. -/
theorem toList_path {start : String} (h : start ≠ "") (steps : Location) :
    (steps.path start).toList = start.toList ++ steps.flatMap Step.suffix := by
  induction steps generalizing start with
  | nil => simp [path]
  | cons s rest ih =>
    have hcons : path start (s :: rest) = path (s.extend start) rest := rfl
    rw [hcons, ih (Step.extend_ne_empty (.inl h)), Step.toList_extend h, List.flatMap_cons,
      List.append_assoc]

/-- A path as it would be written behind another one: a first key gets the dot that it lacks. -/
def continued : List Char → List Char
  | [] => []
  | '[' :: rest => '[' :: rest
  | c :: rest => '.' :: c :: rest

/-- The path of plain steps behind the empty path tells the steps in writing. -/
theorem flatMap_suffix_eq (h : ∀ s ∈ steps, s.isPlain = true) :
    steps.flatMap Step.suffix = continued (steps.path "").toList := by
  cases steps with
  | nil => rfl
  | cons s rest =>
    have hs : s.isPlain = true := h s List.mem_cons_self
    have hcons : path "" (s :: rest) = path (s.extend "") rest := rfl
    rw [hcons, toList_path (Step.extend_ne_empty (.inr hs)), List.flatMap_cons]
    cases s with
    | index i =>
      -- An index is written behind nothing as it is behind a path.
      have hextend : ((Step.index i).extend "").toList = (Step.index i).suffix := by
        simp [Step.extend, indexPath, Step.suffix]
      rw [hextend]
      rfl
    | key key =>
      obtain ⟨t, rfl, ht, hplain⟩ := Step.isPlain_key_iff.1 hs
      cases htext : t.toList with
      | nil => exact absurd (String.toList_eq_nil_iff.1 htext) ht
      | cons c cs =>
        -- The key is told from an index by its first character.
        have hc : c ≠ '[' := by simpa using (Bool.and_eq_true_iff.1 (hplain c (by simp [htext]))).2
        have hextend : ((Step.key (.string t)).extend "").toList = c :: cs := htext
        have hsuffix : (Step.key (.string t)).suffix = '.' :: c :: cs := congrArg _ htext
        rw [hextend, hsuffix, List.cons_append, List.cons_append, continued]
        exact hc

/-- What steps write begins with one of the two signs with which a path goes on. -/
theorem head?_flatMap_suffix {c : Char} (h : c ∈ (steps.flatMap Step.suffix).head?) :
    c = '.' ∨ c = '[' := by
  cases steps with
  | nil => cases h
  | cons s rest =>
    cases s with
    | key k => exact .inl (Option.some.inj h).symm
    | index i => exact .inr (Option.some.inj h).symm

/-- A plain step in writing is told from the steps in writing behind it. -/
theorem suffix_append_inj {s s' : Step} (hs : s.isPlain = true) (hs' : s'.isPlain = true)
    (h : s.suffix ++ steps.flatMap Step.suffix = s'.suffix ++ steps'.flatMap Step.suffix) :
    s = s' ∧ steps.flatMap Step.suffix = steps'.flatMap Step.suffix := by
  cases s with
  | key k =>
    cases s' with
    | key k' =>
      obtain ⟨t, rfl, -, ht⟩ := Step.isPlain_key_iff.1 hs
      obtain ⟨t', rfl, -, ht'⟩ := Step.isPlain_key_iff.1 hs'
      -- Keys end where the next step begins, if there is one.
      have hstop (more : Location) : ∀ c ∈ (more.flatMap Step.suffix).head?,
          (c != '.' && c != '[') = false := by
        intro c hc
        rcases head?_flatMap_suffix hc with rfl | rfl <;> rfl
      obtain ⟨htext, hrest⟩ := append_inj_of_stop ht ht' (hstop _) (hstop _) (List.cons.inj h).2
      rw [String.toList_inj.1 htext]
      exact ⟨rfl, hrest⟩
    | index i => exact absurd (List.cons.inj h).1 (by decide)
  | index i =>
    cases s' with
    | key k => exact absurd (List.cons.inj h).1 (by decide)
    | index j =>
      -- Digits end at the closing bracket.
      have hdigits (n : Nat) : ∀ c ∈ (toString (n : Int)).toList, (c != ']') = true := by
        intro c hc
        rcases isDigit_or_eq_of_mem_toString hc with hdigit | rfl
        · exact bne_iff_ne.2 fun hbracket => by simp [hbracket] at hdigit
        · rfl
      have hdrop : (toString (i : Int)).toList ++ [']'] ++ steps.flatMap Step.suffix =
          (toString (j : Int)).toList ++ [']'] ++ steps'.flatMap Step.suffix := (List.cons.inj h).2
      rw [List.append_assoc, List.append_assoc] at hdrop
      obtain ⟨htext, hrest⟩ := append_inj_of_stop (hdigits i) (hdigits j) (by simp) (by simp) hdrop
      obtain rfl : i = j := Int.ofNat.inj (Int.repr_inj.1 (String.toList_inj.1 htext))
      exact ⟨rfl, List.append_cancel_left hrest⟩

/-- Plain steps are told by what they write behind a path. -/
theorem flatMap_suffix_inj (h : ∀ s ∈ steps, s.isPlain = true) (h' : ∀ s ∈ steps', s.isPlain = true)
    (heq : steps.flatMap Step.suffix = steps'.flatMap Step.suffix) : steps = steps' := by
  have hnil (s : Step) (rest : Location) : (s :: rest).flatMap Step.suffix ≠ [] := by
    cases s <;> exact List.cons_ne_nil _ _
  induction steps generalizing steps' with
  | nil =>
    cases steps' with
    | nil => rfl
    | cons s' rest' => exact absurd heq.symm (hnil s' rest')
  | cons s rest ih =>
    cases steps' with
    | nil => exact absurd heq (hnil s rest)
    | cons s' rest' =>
      rw [List.forall_mem_cons] at h h'
      rw [List.flatMap_cons, List.flatMap_cons] at heq
      obtain ⟨rfl, hrest⟩ := suffix_append_inj h.1 h'.1 heq
      rw [ih h.2 h'.2 hrest]

/-- Plain steps are told by their path. -/
theorem path_inj (h : ∀ s ∈ steps, s.isPlain = true) (h' : ∀ s ∈ steps', s.isPlain = true)
    (heq : steps.path "" = steps'.path "") : steps = steps' := by
  refine flatMap_suffix_inj h h' ?_
  rw [flatMap_suffix_eq h, flatMap_suffix_eq h', heq]

/-- A key with a dot, one with a bracket and an empty one each take the path of other steps. -/
example :
    path "" [.key (.string "a.b")] = path "" [.key (.string "a"), .key (.string "b")] ∧
      path "" [.key (.string "a[0]")] = path "" [.key (.string "a"), .index 0] ∧
      path "" [.key (.string ""), .key (.string "a")] = path "" [.key (.string "a")] := by
  decide

end Location

/-! ## Steps into a value -/

namespace Value

variable {v u u' w w' : Value} {s : Step} {steps : Location}

/-- The keys in a value are plain if its own are and those in its parts. -/
theorem plainKeyed_of_parts
    (hkeys : ∀ entries, v = .object entries → ∀ e ∈ entries, e.1.isPlainKey = true)
    (hparts : ∀ s u, v.StepsTo s u → u.PlainKeyed) : v.PlainKeyed := by
  intro steps entries h
  cases h with
  | here => exact hkeys entries rfl
  | step first rest => exact hparts _ _ first _ entries rest

/-- There are no keys in what is no container. -/
theorem plainKeyed_of_not_isContainer (hv : v.isContainer = false) : v.PlainKeyed := by
  refine plainKeyed_of_parts (fun entries h => ?_) fun s u first => ?_
  · rw [h] at hv
    cases hv
  · simp [first.isContainer] at hv

/-- The keys in a sequence are plain if those in its elements are. -/
theorem plainKeyed_of_items? {items : List Value} (hitems : v.items? = some items)
    (helements : ∀ item ∈ items, item.PlainKeyed) : v.PlainKeyed := by
  refine plainKeyed_of_parts (fun entries h => ?_) fun s u first => ?_
  · rw [h] at hitems
    cases hitems
  · cases first with
    | key mem => cases hitems
    | index hitems' hitem =>
      obtain rfl := Option.some.inj (hitems.symm.trans hitems')
      exact helements u (List.mem_of_getElem? hitem)
    | missing hitems' =>
      -- What marks the position is no container.
      exact plainKeyed_of_not_isContainer rfl

/-- The keys in an object are plain if its own are and those in its items. -/
theorem plainKeyed_object {entries : List (Value × Value)}
    (hkeys : ∀ e ∈ entries, e.1.isPlainKey = true) (hparts : ∀ e ∈ entries, e.2.PlainKeyed) :
    (Value.object entries).PlainKeyed := by
  refine plainKeyed_of_parts (fun entries' h => ?_) fun s u first => ?_
  · obtain rfl := Value.object.inj h
    exact hkeys
  · cases first with
    | key mem => exact hparts _ mem
    | index hitems _ => cases hitems
    | missing hitems => cases hitems

/-- A part of a value whose keys are plain is one too. -/
theorem PlainKeyed.of_stepsTo (hv : v.PlainKeyed) (h : v.StepsTo s u) : u.PlainKeyed :=
  fun steps entries hleads => hv (s :: steps) entries (.step h hleads)

/-- A step into a value whose keys are plain is plain. -/
theorem StepsTo.isPlain (hv : v.PlainKeyed) (h : v.StepsTo s u) : s.isPlain = true := by
  cases h with
  | key mem => exact hv [] _ (.here _) _ mem
  | index hitems hitem => rfl
  | missing hitems => rfl

/-- Steps into a value whose keys are plain are plain. -/
theorem LeadsTo.isPlain (hv : v.PlainKeyed) (h : v.LeadsTo steps w) :
    ∀ s ∈ steps, s.isPlain = true := by
  induction h with
  | here v => simp
  | step first rest ih =>
    exact List.forall_mem_cons.2 ⟨first.isPlain hv, ih (hv.of_stepsTo first)⟩

/-- Keys and elements are told apart in the parts of a value as in the value. -/
theorem Distinct.of_stepsTo (hv : v.Distinct) (h : v.StepsTo s u) : u.Distinct := by
  cases h with
  | key mem =>
    cases hv with
    | scalar _ hentries _ => cases hentries
    | sequence hitems _ => cases hitems
    | object _ _ items => exact items _ mem
  | index hitems hitem =>
    cases hv with
    | scalar hnone _ _ => simp [hnone] at hitems
    | sequence hsome elements =>
      obtain rfl := Option.some.inj (hsome.symm.trans hitems)
      exact elements _ (List.mem_of_getElem? hitem)
    | object _ _ _ => cases hitems
    | set _ _ => cases hitems
  | missing hitems => exact .scalar rfl rfl (by decide)

/-- A step leads to one part of a value. -/
theorem StepsTo.unique (hv : v.Distinct) (h : v.StepsTo s u) (h' : v.StepsTo s u') : u = u' := by
  cases h with
  | key mem =>
    cases h' with
    | key mem' =>
      cases hv with
      | scalar _ hentries _ => cases hentries
      | sequence hitems _ => cases hitems
      | object distinct keys _ =>
        have hkeys := fun e he => (keys e he).lawful
        have hsame := Lawful.eq_of_alike_keys distinct hkeys mem mem' (hkeys _ mem).refl
        exact congrArg Prod.snd hsame
  | index hitems hitem =>
    cases h' with
    | index hitems' hitem' =>
      obtain rfl := Option.some.inj (hitems.symm.trans hitems')
      exact Option.some.inj (hitem.symm.trans hitem')
    | missing hempty =>
      obtain rfl := Option.some.inj (hitems.symm.trans hempty)
      cases hitem
  | missing hempty =>
    cases h' with
    | index hitems hitem =>
      obtain rfl := Option.some.inj (hitems.symm.trans hempty)
      cases hitem
    | missing _ => rfl

/-- Steps lead to one part of a value. -/
theorem LeadsTo.unique (hv : v.Distinct) (h : v.LeadsTo steps w) (h' : v.LeadsTo steps w') :
    w = w' := by
  induction h with
  | here v =>
    cases h'
    rfl
  | step first rest ih =>
    cases h' with
    | step first' rest' =>
      obtain rfl := first.unique hv first'
      exact ih (hv.of_stepsTo first) rest'

end Value

end ShapeSchema
