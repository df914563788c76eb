import ShapeSchema.Conformance.Descent
import ShapeSchema.Proofs.Conformance.Parts

/-!
# Arrays, position by position

An array schema asks about the positions of an array from the first on, one after the other, and
about its length at some point; `Checker.exists_elements_eq_forEach` says so in one form for all
array schemas, with or without a repeat mark. How far the schema goes, and whether the length is a
problem in the end, depends on the length alone.

What is true of runs in order is then true of arrays: if they find a violation then it is that of
the first run that does not end well (`Run.exists_of_forEach_violates`), and the runs behind that
one do not matter (`Run.forEach_eq_of_stop`).
-/

namespace ShapeSchema

/-! ## Runs in order -/

namespace Run

variable {α : Type} {run run' : α → Run}

/-- Nothing comes after a run that does not end well. -/
theorem andThen_of_stop {r : Run} {next : Unit → Run} (h : r.verdict ≠ .conforms) :
    r.andThen next = r := by
  unfold andThen
  split
  · contradiction
  · rfl

/-- A violation as seen from one step further out is one that has been found. -/
theorem exists_of_under_violates {s : Step} {r : Run} {w : Violation}
    (h : (r.under s).verdict = .violates w) :
    ∃ found, r.verdict = .violates found ∧ w = found.under s := by
  rw [under] at h
  cases hr : r.verdict with
  | violates found =>
    rw [hr] at h
    exact ⟨found, rfl, (Verdict.violates.inj h).symm⟩
  | _ =>
    rw [hr] at h
    cases h

/-- If runs in order find a violation then it is that of the first run that does not end well. -/
theorem exists_of_forEach_violates {as : List α} {w : Violation}
    (h : (forEach run as).verdict = .violates w) :
    ∃ before a after, as = before ++ a :: after ∧
      (∀ b ∈ before, (run b).verdict = .conforms) ∧ (run a).verdict = .violates w := by
  induction as with
  | nil => cases h
  | cons a rest ih =>
    rw [forEach_cons] at h
    by_cases ha : (run a).verdict = .conforms
    · rw [andThen, ha] at h
      obtain ⟨before, b, after, rfl, hbefore, hb⟩ := ih h
      exact ⟨a :: before, b, after, rfl, List.forall_mem_cons.2 ⟨ha, hbefore⟩, hb⟩
    · rw [andThen_of_stop ha] at h
      exact ⟨[], a, rest, rfl, fun b hb => absurd hb List.not_mem_nil, h⟩

/-- What comes after a run that does not end well does not matter. -/
theorem forEach_eq_of_stop {before after after' : List α} {a a' : α}
    (hbefore : ∀ b ∈ before, run b = run' b) (ha : run a = run' a')
    (hstop : (run a).verdict ≠ .conforms) :
    forEach run (before ++ a :: after) = forEach run' (before ++ a' :: after') := by
  induction before with
  | nil =>
    rw [List.nil_append, List.nil_append, forEach_cons, forEach_cons, ← ha, andThen_of_stop hstop,
      andThen_of_stop hstop]
  | cons b before ih =>
    rw [List.forall_mem_cons] at hbefore
    rw [List.cons_append, List.cons_append, forEach_cons, forEach_cons, hbefore.1, ih hbefore.2]

/-- Of three runs one after the other it does not matter which two are taken together. -/
theorem andThen_assoc (r : Run) (next last : Unit → Run) :
    (r.andThen next).andThen last = r.andThen fun _ => (next ()).andThen last := by
  obtain ⟨log, verdict⟩ := r
  cases verdict with
  | conforms =>
    dsimp only [andThen]
    cases hnext : (next ()).verdict <;> simp [after, hnext]
  | _ => rfl

/-- After any run, one that ends well without notes adds nothing. -/
theorem andThen_conforming (r : Run) : (r.andThen fun _ => conforming) = r := by
  obtain ⟨log, verdict⟩ := r
  cases verdict <;> simp [andThen, conforming, silent, after]

/-- Runs in order are first some of them and then the others. -/
theorem forEach_append (as bs : List α) :
    forEach run (as ++ bs) = (forEach run as).andThen fun _ => forEach run bs := by
  induction as with
  | nil => rfl
  | cons a rest ih => rw [List.cons_append, forEach_cons, forEach_cons, ih, andThen_assoc]

/-- If runs by number find a violation then it is that of the first that does not end well. -/
theorem exists_of_forEach_range_violates {run : Nat → Run} {n : Nat} {w : Violation}
    (h : (forEach run (List.range n)).verdict = .violates w) :
    ∃ i after, List.range n = List.range i ++ i :: after ∧
      (∀ j < i, (run j).verdict = .conforms) ∧ (run i).verdict = .violates w := by
  obtain ⟨before, i, after, hrange, hbefore, hi⟩ := exists_of_forEach_violates h
  rw [List.range_eq_range'] at hrange
  obtain ⟨k, -, rfl, hrest⟩ := List.range'_eq_append_iff.1 hrange
  -- The numbers in front are those below the next one.
  obtain rfl : k = i := by
    cases hn : n - k with
    | zero => simp [hn] at hrest
    | succ m =>
      rw [hn, List.range'_succ] at hrest
      simpa using (List.cons.inj hrest).1.symm
  simp only [← List.range_eq_range'] at hrange hbefore
  exact ⟨k, after, hrange, fun j hj => hbefore j (List.mem_range.2 hj), hi⟩

end Run

/-! ## Arrays, position by position -/

/-- A step leads to each position of a sequence, and to the first position of an empty one. -/
theorem Value.stepsTo_position {v : Value} {items : List Value} {i : Nat}
    (hitems : v.items? = some items) (hi : i < items.length ∨ i = 0 ∧ items.length = 0) :
    v.StepsTo (.index i) (items[i]?.getD .missing) := by
  rcases hi with hi | ⟨rfl, hempty⟩
  · rw [List.getElem?_eq_getElem hi]
    exact .index hitems (List.getElem?_eq_getElem hi)
  · obtain rfl := List.eq_nil_of_length_eq_zero hempty
    exact .missing hitems

namespace Checker

/-- What an array schema asks about a position. -/
def position (strict : Bool) (room : Int) (nodes items : List Value) (i : Nat) : Run :=
  match Schema.positionNode? nodes i with
  | some node =>
    (Schema.node strict node).runUnder room (.index i) (items[i]?.getD .missing)
  | none => .conforming

variable {room : Int} {start : Nat} (run : Nat → Run)

/-- Nodes held against elements, by number. -/
theorem positions_eq_forEach {nodes : List Node} {items : List Value}
    (h : ∀ i node item, nodes[i]? = some node → items[i]? = some item →
      run (start + i) = node.runUnder room (.index (start + i)) item) :
    positions room start nodes items =
      Run.forEach run (List.range' start (min nodes.length items.length)) := by
  induction nodes generalizing start items with
  | nil => simp [positions, Run.forEach_nil]
  | cons node nodes ih =>
    cases items with
    | nil => simp [positions, Run.forEach_nil]
    | cons item items =>
      have hrest : ∀ i node item, nodes[i]? = some node → items[i]? = some item →
          run (start + 1 + i) = node.runUnder room (.index (start + 1 + i)) item := by
        intro i node item hnode hitem
        rw [Nat.add_right_comm]
        exact h (i + 1) node item hnode hitem
      have hfirst : run start = node.runUnder room (.index start) item := h 0 node item rfl rfl
      rw [positions_cons, ih hrest, List.length_cons, List.length_cons, Nat.add_min_add_right,
        List.range'_succ, Run.forEach_cons, hfirst]

/-- One node held against elements, by number. -/
theorem repeated_eq_forEach {node : Node} {items : List Value}
    (h : ∀ i item, items[i]? = some item →
      run (start + i) = node.runUnder room (.index (start + i)) item) :
    repeated room start node items = Run.forEach run (List.range' start items.length) := by
  induction items generalizing start with
  | nil => rfl
  | cons item items ih =>
    have hrest : ∀ i item, items[i]? = some item →
        run (start + 1 + i) = node.runUnder room (.index (start + 1 + i)) item := by
      intro i item hitem
      rw [Nat.add_right_comm]
      exact h (i + 1) item hitem
    have hfirst : run start = node.runUnder room (.index start) item := h 0 item rfl
    rw [repeated_cons, ih hrest, List.length_cons, List.range'_succ, Run.forEach_cons, hfirst]

end Checker

namespace Schema

variable {lead : List Value} {node last : Value} {i : Nat}

/-- Each node in front of the last two governs one position. -/
theorem positionNode?_of_lt (hi : i < lead.length) :
    positionNode? (lead ++ [node, last]) i = lead[i]? := by
  have hmin : min i ((lead ++ [node, last]).length - 2) = i := by simp; omega
  rw [positionNode?, hmin, ite_self, List.getElem?_append_left hi]

/-- The node before a repeat mark governs all positions from its own on. -/
theorem positionNode?_of_mark {r : Repetition} (hmark : Repetition.ofValue? last = some r)
    (hi : lead.length ≤ i) : positionNode? (lead ++ [node, last]) i = some node := by
  have hmin : min i ((lead ++ [node, last]).length - 2) = lead.length := by simp; omega
  rw [positionNode?, endsInMark_append_pair, hmark, hmin]
  simp

/-- Without a repeat mark each node governs one position. -/
theorem positionNode?_of_no_mark (hmark : Repetition.ofValue? last = none) :
    positionNode? (lead ++ [node, last]) i = (lead ++ [node, last])[i]? := by
  rw [positionNode?, endsInMark_append_pair, hmark]
  rfl

/-- What governs a position is an element of the array schema. -/
theorem mem_of_positionNode? {nodes : List Value} {part : Value}
    (h : positionNode? nodes i = some part) : part ∈ nodes := by
  unfold positionNode? at h
  split at h <;> exact List.mem_of_getElem? h

/-- What governs a position is a node of the array schema, and never the repeat mark. -/
theorem mem_arrayNodes_of_positionNode? {nodes : List Value} {part : Value}
    (h : positionNode? nodes i = some part) : part ∈ arrayNodes nodes := by
  rw [arrayNodes]
  rw [positionNode?] at h
  split at h
  · rw [if_pos ‹_›]
    -- Only of two elements at least is the last one a mark.
    rcases exists_append_pair nodes with rfl | ⟨node, rfl⟩ | ⟨lead, node, last, rfl⟩
    · contradiction
    · contradiction
    · have hconcat : lead ++ [node, last] = lead ++ [node] ++ [last] := by simp
      have hlt : min i ((lead ++ [node] ++ [last]).length - 2) < (lead ++ [node]).length := by
        rw [List.length_append, List.length_append, List.length_singleton, List.length_singleton]
        omega
      rw [hconcat, List.dropLast_concat]
      rw [hconcat, List.getElem?_append_left hlt] at h
      exact List.mem_of_getElem? h
  · rw [if_neg ‹_›]
    exact List.mem_of_getElem? h

/-- If something governs a position then so it is with all positions before it. -/
theorem exists_positionNode?_of_le {nodes : List Value} {part : Value} {j : Nat} (hj : j ≤ i)
    (h : positionNode? nodes i = some part) : ∃ earlier, positionNode? nodes j = some earlier := by
  unfold positionNode? at *
  split at h
  · obtain ⟨hlt, -⟩ := List.getElem?_eq_some_iff.1 h
    rw [if_pos ‹_›]
    exact ⟨_, List.getElem?_eq_getElem (by omega)⟩
  · obtain ⟨hlt, -⟩ := List.getElem?_eq_some_iff.1 h
    rw [if_neg ‹_›]
    exact ⟨_, List.getElem?_eq_getElem (by omega)⟩

end Schema

namespace Checker

variable {strict : Bool} {room : Int} {lead items : List Value} {node last : Value}

/-- The nodes in front of the last two, held against the elements in front. -/
theorem positions_lead (node last : Value) (henough : lead.length ≤ items.length) :
    positions room 0 (lead.map (Schema.node strict)) items =
      Run.forEach (position strict room (lead ++ [node, last]) items)
        (List.range' 0 lead.length) := by
  rw [positions_eq_forEach (position strict room (lead ++ [node, last]) items),
    List.length_map, Nat.min_eq_left henough]
  intro i n item hn hitem
  rw [List.getElem?_map, Option.map_eq_some_iff] at hn
  obtain ⟨part, hpart, rfl⟩ := hn
  have hi : i < lead.length := (List.getElem?_eq_some_iff.1 hpart).1
  rw [Nat.zero_add, position, Schema.positionNode?_of_lt hi, hpart, hitem]
  rfl

/-- The node before a repeat mark, held against all elements from its position on. -/
theorem repeated_rest {r : Repetition} (hmark : Repetition.ofValue? last = some r) :
    repeated room lead.length (Schema.node strict node) (items.drop lead.length) =
      Run.forEach (position strict room (lead ++ [node, last]) items)
        (List.range' lead.length (items.length - lead.length)) := by
  rw [repeated_eq_forEach (position strict room (lead ++ [node, last]) items),
    List.length_drop]
  intro i item hitem
  rw [List.getElem?_drop] at hitem
  rw [position, Schema.positionNode?_of_mark hmark (by omega), hitem]
  rfl

/-- The last two nodes, held against the last two elements. -/
theorem positions_rest (hmark : Repetition.ofValue? last = none)
    (hlength : items.length = lead.length + 2) :
    positions room lead.length ([node, last].map (Schema.node strict)) (items.drop lead.length) =
      Run.forEach (position strict room (lead ++ [node, last]) items)
        (List.range' lead.length 2) := by
  have hrest : (items.drop lead.length).length = 2 := by rw [List.length_drop]; omega
  rw [positions_eq_forEach (position strict room (lead ++ [node, last]) items), hrest,
    List.length_map]
  · rfl
  · intro i n item hn hitem
    rw [List.getElem?_map, Option.map_eq_some_iff] at hn
    obtain ⟨part, hpart, rfl⟩ := hn
    rw [List.getElem?_drop] at hitem
    have hnode : (lead ++ [node, last])[lead.length + i]? = some part := by
      rw [List.getElem?_append_right (by omega), Nat.add_sub_cancel_left, hpart]
    rw [position, Schema.positionNode?_of_no_mark hmark, hnode, hitem]
    rfl

/-- The last two nodes of an array schema ask about the positions from their own on, as far as the
length of the array has them, or else the length is a problem. -/
theorem exists_arrayEnd_eq_forEach (strict : Bool) (room : Int) (lead : List Value)
    (node last : Value) {length : Nat} (henough : lead.length ≤ length) :
    ∃ (count : Nat) (wrong? : Option Problem), lead.length + count ≤ length ∧
      (∀ p, wrong? = some p → p.baseSteps = []) ∧
      ∀ items : List Value, items.length = length →
        arrayEnd room lead.length (Schema.node strict node) (Schema.node strict last)
            (items.drop lead.length) =
          (Run.forEach (position strict room (lead ++ [node, last]) items)
            (List.range' lead.length count)).andThen fun _ =>
              wrong?.elim .conforming Run.problem := by
  cases hmark : Repetition.ofValue? last with
  | some r =>
    by_cases hfew : r = .atLeastOnce ∧ length = lead.length
    · refine ⟨0, some .tooFewElements, henough, by simp [Problem.baseSteps],
        fun items hlength => ?_⟩
      have hempty : r = .atLeastOnce ∧ items.drop lead.length = [] :=
        ⟨hfew.1, List.drop_eq_nil_of_le (by omega)⟩
      rw [arrayEnd_of_mark hmark, if_pos hempty]
      rfl
    · refine ⟨length - lead.length, none, by omega, by simp, fun items hlength => ?_⟩
      have hsome : ¬(r = .atLeastOnce ∧ items.drop lead.length = []) := by
        rintro ⟨hr, hdrop⟩
        rw [List.drop_eq_nil_iff] at hdrop
        exact hfew ⟨hr, by omega⟩
      rw [arrayEnd_of_mark hmark, if_neg hsome, repeated_rest hmark, hlength]
      exact (Run.andThen_conforming _).symm
  | none =>
    rcases Nat.lt_trichotomy length (lead.length + 2) with hfew | rfl | hmany
    · refine ⟨0, some .tooFewElements, henough, by simp [Problem.baseSteps],
        fun items hlength => ?_⟩
      rw [arrayEnd_of_no_mark hmark, if_pos (by rw [List.length_drop]; omega)]
      rfl
    · refine ⟨2, none, Nat.le_refl _, by simp, fun items hlength => ?_⟩
      have hrest : (items.drop lead.length).length = 2 := by rw [List.length_drop]; omega
      rw [arrayEnd_of_no_mark hmark, hrest, if_neg (by simp), if_neg (by simp),
        positions_rest hmark hlength]
      exact (Run.andThen_conforming _).symm
    · refine ⟨0, some .tooManyElements, henough, by simp [Problem.baseSteps],
        fun items hlength => ?_⟩
      have hrest : (items.drop lead.length).length = length - lead.length := by
        rw [List.length_drop, hlength]
      rw [arrayEnd_of_no_mark hmark, hrest, if_neg (by omega), if_pos (by omega)]
      rfl

/-- An array schema asks about the positions of an array in order, from the first on, and then it
may find its length to be a problem. How many positions it asks about depends on the length alone;
only of an empty array can it ask about a position that is not there. -/
theorem exists_elements_eq_forEach (strict : Bool) (room : Int) (nodes : List Value)
    (length : Nat) :
    ∃ (count : Nat) (wrong? : Option Problem), (∀ i < count, i < length ∨ i = 0 ∧ length = 0) ∧
      (∀ p, wrong? = some p → p.baseSteps = []) ∧
      ∀ items : List Value, items.length = length →
        elements room (nodes.map (Schema.node strict)) items =
          (Run.forEach (position strict room nodes items) (List.range count)).andThen fun _ =>
            wrong?.elim .conforming Run.problem := by
  rcases exists_append_pair nodes with rfl | ⟨node, rfl⟩ | ⟨lead, node, last, rfl⟩
  · refine ⟨0, if length = 0 then none else some .notEmpty, by simp, fun p hp => ?_,
      fun items hlength => ?_⟩
    · split at hp
      · cases hp
      · rw [← Option.some.inj hp]
        rfl
    · subst hlength
      cases items <;> rfl
  · refine ⟨1, none, by omega, by simp, fun items hlength => ?_⟩
    have hposition : position strict room [node] items 0 =
        (Schema.node strict node).runUnder room (.index 0) (items.head?.getD .missing) := by
      rw [List.head?_eq_getElem?]
      rfl
    rw [Option.elim_none, Run.andThen_conforming, List.range_one, Run.forEach_cons, hposition,
      Run.forEach_nil, Run.andThen_conforming]
    rfl
  · rw [List.map_append, List.map_cons, List.map_cons, List.map_nil]
    by_cases hshort : length < lead.length
    · refine ⟨0, some .tooFewElements, by simp, by simp [Problem.baseSteps],
        fun items hlength => ?_⟩
      rw [elements_append_pair, List.length_map, hlength, if_pos hshort]
      rfl
    · obtain ⟨count, wrong?, hcount, hwrong, hend⟩ :=
        exists_arrayEnd_eq_forEach strict room lead node last (Nat.le_of_not_lt hshort)
      refine ⟨lead.length + count, wrong?, by omega, hwrong, fun items hlength => ?_⟩
      have hrange : List.range (lead.length + count) =
          List.range' 0 lead.length ++ List.range' lead.length count := by
        rw [List.range_eq_range', ← List.range'_append_1, Nat.zero_add]
      rw [elements_append_pair, List.length_map, if_neg (by omega), hend items hlength, hrange,
        Run.forEach_append, Run.andThen_assoc,
        positions_lead node last (by omega)]

end Checker

end ShapeSchema
