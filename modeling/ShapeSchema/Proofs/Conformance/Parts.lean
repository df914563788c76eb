import ShapeSchema.Proofs.Conformance.Forms

/-!
# From the runs of parts to the run of the whole

A property of verdicts that holds where nothing is wrong, and wherever the verdict is seen from, is
`Verdict.Mobile`; it passes from runs to what is put together from them. That a verdict conforms is
such a property, and it passes back as well (`Run.forEach_conforms_iff`). So is that a verdict does
not reject the value (`Verdict.mobile_not_rejects`), and a union rejects a value exactly when all of
its alternatives do (`Checker.attempt_rejects_iff`).

`Schema.Pairs` says which nodes of an array schema are asked about which elements of an array.
-/

namespace ShapeSchema

/-- A property of verdicts that holds where nothing is wrong, and goes along with a verdict to where
it is seen from. -/
structure Verdict.Mobile (P : Verdict → Prop) : Prop where
  /-- It holds where nothing is wrong. -/
  conforms : P .conforms
  /-- It goes along with a verdict to where it is seen from. -/
  under : ∀ (s : Step) {verdict : Verdict}, P verdict → P (verdict.under s)

namespace Verdict.Mobile

variable {P : Verdict → Prop}

/-- It holds of runs one after the other when it holds of both. -/
theorem andThen {r : Run} {next : Unit → Run} (hr : P r.verdict) (hnext : P (next ()).verdict) :
    P (r.andThen next).verdict := by
  unfold Run.andThen
  split
  · exact hnext
  · exact hr

/-- It holds of runs one instead of the other when it holds of both. -/
theorem orElse {r : Run} {alternative : String} {next : Unit → Run} (hr : P r.verdict)
    (hnext : P (next ()).verdict) : P (r.orElse alternative next).verdict := by
  unfold Run.orElse
  split
  · split
    · exact hr
    · exact hnext
  · exact hr

/-- It holds of runs in order when it holds of each, and where nothing is wrong. -/
theorem forEach_of_conforms (hconforms : P .conforms) {α : Type} {run : α → Run} {as : List α}
    (h : ∀ a ∈ as, P (run a).verdict) : P (Run.forEach run as).verdict := by
  induction as with
  | nil => exact hconforms
  | cons a rest ih =>
    rw [Run.forEach_cons]
    exact andThen (h a List.mem_cons_self) (ih fun b hb => h b (List.mem_cons_of_mem a hb))

/-- It holds of runs in order when it holds of each. -/
theorem forEach (hP : Verdict.Mobile P) {α : Type} {run : α → Run} {as : List α}
    (h : ∀ a ∈ as, P (run a).verdict) : P (Run.forEach run as).verdict :=
  forEach_of_conforms hP.conforms h

/-- It holds of elements position by position when it holds at each position. -/
theorem positions (hP : Verdict.Mobile P) {strict : Bool} {room : Int} {start : Nat}
    (schemas items : List Value)
    (h : ∀ p ∈ schemas.zip items, P (Schema.run strict p.1 (room - 1) p.2).verdict) :
    P (Checker.positions room start (schemas.map (Schema.node strict)) items).verdict := by
  -- The list that ends first leaves nothing to ask.
  induction schemas generalizing start items with
  | nil => exact hP.conforms
  | cons schema schemas ih =>
    cases items with
    | nil => exact hP.conforms
    | cons item items =>
      rw [List.zip_cons_cons, List.forall_mem_cons] at h
      rw [List.map_cons, Checker.positions_cons]
      exact andThen (hP.under _ h.1) (ih items h.2)

/-- It holds of one node at all positions when it holds at each. -/
theorem repeated (hP : Verdict.Mobile P) {room : Int} {start : Nat} {node : Node}
    {items : List Value} (h : ∀ item ∈ items, P (node.check (room - 1) item).verdict) :
    P (Checker.repeated room start node items).verdict := by
  induction items generalizing start with
  | nil => exact hP.conforms
  | cons item items ih =>
    rw [List.forall_mem_cons] at h
    rw [Checker.repeated_cons]
    exact andThen (hP.under _ h.1) (ih h.2)

end Verdict.Mobile

/-! ## Runs that end well -/

namespace Run

/-- A run that finds a problem does not end well. -/
theorem problem_not_conforms (p : Problem) : (Run.problem p).verdict ≠ .conforms := nofun

/-- A run ends well wherever it is seen from. -/
theorem under_conforms_iff {s : Step} {r : Run} :
    (r.under s).verdict = .conforms ↔ r.verdict = .conforms := by
  rw [Run.under]
  cases r.verdict <;> simp [Verdict.under]

/-- Runs one after the other end well exactly when both do. -/
theorem andThen_conforms_iff {r : Run} {next : Unit → Run} :
    (r.andThen next).verdict = .conforms ↔
      r.verdict = .conforms ∧ (next ()).verdict = .conforms := by
  rw [Run.andThen]
  cases hr : r.verdict <;> simp [hr, Run.after]

/-- Runs in order end well exactly when each does. -/
theorem forEach_conforms_iff {α : Type} {run : α → Run} {as : List α} :
    (forEach run as).verdict = .conforms ↔ ∀ a ∈ as, (run a).verdict = .conforms := by
  induction as with
  | nil => simp [forEach_nil, conforming, silent]
  | cons a rest ih => rw [forEach_cons, andThen_conforms_iff, ih, List.forall_mem_cons]

end Run

namespace Checker

variable {strict : Bool} {room : Int} {start : Nat} {schemas items : List Value}

/-- Elements position by position end well exactly when each position does. -/
theorem positions_conforms_iff :
    (positions room start (schemas.map (Schema.node strict)) items).verdict = .conforms ↔
      ∀ p ∈ schemas.zip items, (Schema.run strict p.1 (room - 1) p.2).verdict = .conforms := by
  induction schemas generalizing start items with
  | nil => simp [positions, Run.forEach_nil, Run.conforming, Run.silent]
  | cons schema schemas ih =>
    cases items with
    | nil => simp [positions, Run.forEach_nil, Run.conforming, Run.silent]
    | cons item items =>
      rw [List.map_cons, positions_cons, Run.andThen_conforms_iff, Node.runUnder,
        Run.under_conforms_iff, ih, List.zip_cons_cons, List.forall_mem_cons]
      rfl

/-- One node at all positions ends well exactly when it does at each. -/
theorem repeated_conforms_iff {node : Node} :
    (repeated room start node items).verdict = .conforms ↔
      ∀ item ∈ items, (node.check (room - 1) item).verdict = .conforms := by
  induction items generalizing start with
  | nil => simp [repeated, Run.forEach_nil, Run.conforming, Run.silent]
  | cons item items ih =>
    rw [repeated_cons, Run.andThen_conforms_iff, Node.runUnder, Run.under_conforms_iff, ih,
      List.forall_mem_cons]

/-- If an attempt at some alternatives ends well then one of them does. -/
theorem exists_of_attempt_conforms {alternatives nodes : List Node} {v : Value}
    (h : (attempt alternatives room v nodes).verdict = .conforms) :
    ∃ node ∈ nodes, (node.check (room - 1) v).verdict = .conforms := by
  induction nodes with
  | nil => exact absurd h (Run.problem_not_conforms _)
  | cons node rest ih =>
    rw [attempt, Run.orElse] at h
    split at h
    · rename_i hv
      split at h
      · -- For lack of room the attempt ends, and not well.
        simp [hv] at h
      · obtain ⟨other, hmem, hother⟩ := ih h
        exact ⟨other, List.mem_cons_of_mem node hmem, hother⟩
    · exact ⟨node, List.mem_cons_self, h⟩

/-- If an attempt finds something wrong then it is that no alternative takes the value, or a lack of
room that an alternative has found. -/
theorem attempt_violates_cases {alternatives nodes : List Node} {v : Value} {w : Violation}
    (h : (attempt alternatives room v nodes).verdict = .violates w) :
    w = ⟨[], unionProblem alternatives v⟩ ∨
      w.problem = .tooDeep ∧ ∃ node ∈ nodes, (node.check (room - 1) v).verdict = .violates w := by
  induction nodes with
  | nil => exact .inl (Verdict.violates.inj h).symm
  | cons node rest ih =>
    rw [attempt, Run.orElse] at h
    split at h
    · rename_i violation hviolation
      split at h
      · obtain rfl : violation = w := Verdict.violates.inj (hviolation.symm.trans h)
        exact .inr ⟨‹_›, node, List.mem_cons_self, hviolation⟩
      · rcases ih h with hnone | ⟨hdeep, other, hmem, hother⟩
        · exact .inl hnone
        · exact .inr ⟨hdeep, other, List.mem_cons_of_mem node hmem, hother⟩
    · rename_i hother
      exact absurd h (hother w)

end Checker

/-! ## Runs that reject the value -/

/-- The verdict is that the value does not conform. -/
def Verdict.Rejects (verdict : Verdict) : Prop :=
  ∃ v, verdict = .violates v ∧ v.problem ≠ .tooDeep

/-- A fault does not reject the value. -/
theorem Verdict.faults_not_rejects (f : Fault) : ¬(Verdict.faults f).Rejects := by
  rintro ⟨v, hv, -⟩
  cases hv

/-- A verdict that does not reject the value is mobile. -/
theorem Verdict.mobile_not_rejects : Verdict.Mobile fun verdict => ¬verdict.Rejects where
  conforms := by
    rintro ⟨v, hv, -⟩
    cases hv
  under s verdict h := by
    rintro ⟨v, hv, hproblem⟩
    cases verdict with
    | violates w =>
      obtain rfl : w.under s = v := by simpa [Verdict.under] using hv
      exact h ⟨w, rfl, hproblem⟩
    | _ => simp [Verdict.under] at hv

/-- A run for which no room is left does not reject the value. -/
theorem Run.tooDeep_not_rejects : ¬Run.tooDeep.verdict.Rejects := by
  rintro ⟨v, hv, hproblem⟩
  obtain rfl : ⟨[], .tooDeep⟩ = v := by simpa [Run.tooDeep, Verdict.problem] using hv
  exact hproblem rfl

/-- Runs one instead of the other reject the value exactly when both do. -/
theorem Run.orElse_rejects_iff {r : Run} {alternative : String} {next : Unit → Run} :
    (r.orElse alternative next).verdict.Rejects ↔
      r.verdict.Rejects ∧ (next ()).verdict.Rejects := by
  unfold Run.orElse
  cases hr : r.verdict with
  | violates v =>
    by_cases hproblem : v.problem = .tooDeep
    · simp [hproblem, hr, Verdict.Rejects]
    · simp [hproblem, Run.after, Verdict.Rejects]
  | _ => simp [hr, Verdict.Rejects]

/-- An attempt at some alternatives rejects the value exactly when all of them do. -/
theorem Checker.attempt_rejects_iff {alternatives nodes : List Node} {room : Int} {v : Value} :
    (attempt alternatives room v nodes).verdict.Rejects ↔
      ∀ node ∈ nodes, (node.check (room - 1) v).verdict.Rejects := by
  induction nodes with
  | nil =>
    have hproblem : (attempt alternatives room v []).verdict.Rejects :=
      ⟨⟨[], unionProblem alternatives v⟩, rfl, by simp [unionProblem]⟩
    simpa using hproblem
  | cons node rest ih => rw [attempt, Run.orElse_rejects_iff, ih, List.forall_mem_cons]

/-! ## Runs that end for lack of room -/

/-- The verdict is that no room was left. -/
def Verdict.TooDeep (verdict : Verdict) : Prop :=
  ∃ v, verdict = .violates v ∧ v.problem = .tooDeep

/-- It is the same verdict wherever it is seen from. -/
theorem Verdict.TooDeep.under (s : Step) {verdict : Verdict} (h : verdict.TooDeep) :
    (verdict.under s).TooDeep := by
  obtain ⟨v, rfl, hproblem⟩ := h
  exact ⟨v.under s, rfl, hproblem⟩

/-- A verdict that conforms does not say that no room was left. -/
theorem Verdict.conforms_not_tooDeep : ¬Verdict.conforms.TooDeep := by
  rintro ⟨v, hv, -⟩
  cases hv

/-- A fault is not that no room was left. -/
theorem Verdict.faults_not_tooDeep (f : Fault) : ¬(Verdict.faults f).TooDeep := by
  rintro ⟨v, hv, -⟩
  cases hv

/-- A violation with another problem is not that no room was left. -/
theorem Verdict.violates_not_tooDeep {v : Violation} (h : v.problem ≠ .tooDeep) :
    ¬(Verdict.violates v).TooDeep := by
  rintro ⟨w, hw, hproblem⟩
  obtain rfl := Verdict.violates.inj hw
  exact h hproblem

/-- What is wrong with the declarations of an object schema is not that no room was left. -/
theorem Schema.objectVerdict_not_tooDeep (entries : List (Value × Value)) :
    ¬(objectVerdict entries).TooDeep := by
  rintro ⟨v, hv, hproblem⟩
  -- With as much room as the schema is high nothing is too deep.
  have hunsound : objectVerdict entries ≠ .conforms := by simp [hv]
  have hblames := objectVerdict_blames (height (.object entries)) hunsound
  rw [hv] at hblames
  exact absurd (hblames.lt_height hproblem) (Int.lt_irrefl _)

/-! ## Arrays -/

/-- The pairs of a node and an element that have to agree for an array to conform to an array schema
with the given nodes. There are none if the array has not the right length. -/
inductive Schema.Pairs : List Value → List Value → List (Value × Value) → Prop where
  /-- The empty array schema asks about nothing. -/
  | nil : Pairs [] [] []
  /-- A lone node is asked about the first position, whether or not the array has it. -/
  | single {node : Value} {items : List Value} :
    Pairs [node] items [(node, items.head?.getD .missing)]
  /-- Before a repeat mark stands what is asked about all elements from its position on. -/
  | repeated {lead front rest : List Value} {node mark : Value} {r : Repetition}
    (hmark : Repetition.ofValue? mark = some r) (hlength : lead.length = front.length)
    (hrest : r = .atLeastOnce → rest ≠ []) :
    Pairs (lead ++ [node, mark]) (front ++ rest)
      (lead.zip front ++ rest.map fun item => (node, item))
  /-- Otherwise each node is asked about one element. -/
  | fixed {lead front : List Value} {node last item final : Value}
    (hmark : Repetition.ofValue? last = none) (hlength : lead.length = front.length) :
    Pairs (lead ++ [node, last]) (front ++ [item, final])
      (lead.zip front ++ [(node, item), (last, final)])

/-- The nodes of the pairs are elements of the array schema. -/
theorem Schema.Pairs.mem {nodes items : List Value} {pairs : List (Value × Value)}
    (h : Schema.Pairs nodes items pairs) {p : Value × Value} (hp : p ∈ pairs) : p.1 ∈ nodes := by
  cases h with
  | nil => simp at hp
  | single => simp_all
  | repeated hmark hlength hrest =>
    rcases List.mem_append.1 hp with hp | hp
    · exact List.mem_append_left _ (List.of_mem_zip hp).1
    · obtain ⟨item, -, rfl⟩ := List.mem_map.1 hp
      simp
  | fixed hmark hlength =>
    rcases List.mem_append.1 hp with hp | hp
    · exact List.mem_append_left _ (List.of_mem_zip hp).1
    · rcases (by simpa using hp : p = _ ∨ p = _) with rfl | rfl <;> simp

namespace Checker

variable {strict : Bool} {room : Int}

/-- Elements held against two nodes at least, where the elements in front are as many as the nodes
in front. -/
theorem elements_append {lead front rest : List Value} {schema last : Value}
    (hlength : lead.length = front.length) :
    elements room ((lead ++ [schema, last]).map (Schema.node strict)) (front ++ rest) =
      (positions room 0 (lead.map (Schema.node strict)) front).andThen fun _ =>
        arrayEnd room lead.length (Schema.node strict schema) (Schema.node strict last) rest := by
  have hnodes : (lead.map (Schema.node strict)).length = front.length := by
    rw [List.length_map, hlength]
  have hzip : (lead.map (Schema.node strict)).zip (front ++ rest) =
      (lead.map (Schema.node strict)).zip front :=
    calc
      (lead.map (Schema.node strict)).zip (front ++ rest)
      _ = (lead.map (Schema.node strict) ++ []).zip (front ++ rest) := by rw [List.append_nil]
      _ = (lead.map (Schema.node strict)).zip front ++ [].zip rest := List.zip_append hnodes
      _ = (lead.map (Schema.node strict)).zip front := by rw [List.zip_nil_left, List.append_nil]
  have henough : ¬(front ++ rest).length < lead.length := by
    rw [List.length_append]
    omega
  rw [List.map_append, List.map_cons, List.map_cons, List.map_nil, elements_append_pair,
    List.length_map, if_neg henough, positions, hzip, ← positions, List.drop_left' hlength.symm]

/-- The end of an array with a repeat mark. -/
theorem arrayEnd_of_mark {start : Nat} {node : Node} {last : Value} {items : List Value}
    {r : Repetition} (hmark : Repetition.ofValue? last = some r) :
    arrayEnd room start node (Schema.node strict last) items =
      if r = .atLeastOnce ∧ items = [] then .problem .tooFewElements
      else repeated room start node items := by
  rw [arrayEnd, Schema.node, hmark]
  cases r <;> cases items <;> rfl

/-- The end of an array without a repeat mark. -/
theorem arrayEnd_of_no_mark {start : Nat} {schema last : Value} {items : List Value}
    (hmark : Repetition.ofValue? last = none) :
    arrayEnd room start (Schema.node strict schema) (Schema.node strict last) items =
      if items.length < 2 then .problem .tooFewElements
      else if 2 < items.length then .problem .tooManyElements
      else positions room start ([schema, last].map (Schema.node strict)) items := by
  rw [arrayEnd, Schema.node, Schema.node, hmark]
  rfl

/-- If the elements from an index on end well then they pair with the last two nodes, behind any
pairs in front. -/
theorem exists_pairs_of_arrayEnd_conforms {start : Nat} {lead front rest : List Value}
    {schema last : Value} (hlength : lead.length = front.length)
    (h : (arrayEnd room start (Schema.node strict schema) (Schema.node strict last)
      rest).verdict = .conforms) :
    ∃ pairs, Schema.Pairs (lead ++ [schema, last]) (front ++ rest) (lead.zip front ++ pairs) ∧
      ∀ p ∈ pairs, (Schema.run strict p.1 (room - 1) p.2).verdict = .conforms := by
  cases hmark : Repetition.ofValue? last with
  | some r =>
    rw [arrayEnd_of_mark hmark] at h
    by_cases hempty : r = .atLeastOnce ∧ rest = []
    · rw [if_pos hempty] at h
      exact absurd h (Run.problem_not_conforms _)
    · rw [if_neg hempty, repeated_conforms_iff] at h
      refine ⟨_, .repeated hmark hlength fun hr hrest => hempty ⟨hr, hrest⟩, ?_⟩
      rw [List.forall_mem_map]
      exact h
  | none =>
    rw [arrayEnd_of_no_mark hmark] at h
    -- Only two elements pass the two questions about the length.
    rcases rest with _ | ⟨item, _ | ⟨final, _ | ⟨next, rest⟩⟩⟩
    · exact absurd h (Run.problem_not_conforms _)
    · exact absurd h (Run.problem_not_conforms _)
    · exact ⟨_, .fixed hmark hlength, positions_conforms_iff.1 h⟩
    · rw [if_neg (by simp), if_pos (by simp)] at h
      exact absurd h (Run.problem_not_conforms _)

/-- If an array ends well then its pairs do. -/
theorem exists_pairs_of_elements_conforms {schemas items : List Value}
    (h : (elements room (schemas.map (Schema.node strict)) items).verdict = .conforms) :
    ∃ pairs, Schema.Pairs schemas items pairs ∧
      ∀ p ∈ pairs, (Schema.run strict p.1 (room - 1) p.2).verdict = .conforms := by
  rcases exists_append_pair schemas with rfl | ⟨schema, rfl⟩ | ⟨lead, schema, last, rfl⟩
  · cases items with
    | nil => exact ⟨[], .nil, by simp⟩
    | cons item items => exact absurd h (Run.problem_not_conforms _)
  · have hfirst : (Schema.run strict schema (room - 1) (items.head?.getD .missing)).verdict =
        .conforms := Run.under_conforms_iff.1 h
    exact ⟨_, .single, by simpa using hfirst⟩
  · -- The elements are cut where the last two nodes begin, if there are enough of them.
    by_cases hshort : items.length < lead.length
    · rw [List.map_append, List.map_cons, List.map_cons, List.map_nil, elements_append_pair,
        List.length_map, if_pos hshort] at h
      exact absurd h (Run.problem_not_conforms _)
    · obtain ⟨front, rest, rfl, hlength⟩ :
          ∃ front rest, items = front ++ rest ∧ lead.length = front.length :=
        ⟨items.take lead.length, items.drop lead.length, (List.take_append_drop _ _).symm,
          by rw [List.length_take]; omega⟩
      rw [elements_append hlength, Run.andThen_conforms_iff, positions_conforms_iff] at h
      obtain ⟨hfront, hend⟩ := h
      obtain ⟨pairs, hpairs, hruns⟩ := exists_pairs_of_arrayEnd_conforms hlength hend
      refine ⟨_, hpairs, ?_⟩
      rw [List.forall_mem_append]
      exact ⟨hfront, hruns⟩

end Checker

/-- A property of verdicts holds of the elements of an array when it holds of the pairs. -/
theorem Verdict.Mobile.elements {P : Verdict → Prop} (hP : Verdict.Mobile P) {strict : Bool}
    {room : Int} {schemas items : List Value} {pairs : List (Value × Value)}
    (hpairs : Schema.Pairs schemas items pairs)
    (h : ∀ p ∈ pairs, P (Schema.run strict p.1 (room - 1) p.2).verdict) :
    P (Checker.elements room (schemas.map (Schema.node strict)) items).verdict := by
  cases hpairs with
  | nil => exact hP.conforms
  | single => exact hP.under _ (h _ List.mem_cons_self)
  | repeated hmark hlength hrest =>
    rw [Checker.elements_append hlength]
    rw [List.forall_mem_append, List.forall_mem_map] at h
    refine andThen (hP.positions _ _ h.1) ?_
    rw [Checker.arrayEnd_of_mark hmark, if_neg fun hempty => hrest hempty.1 hempty.2]
    exact hP.repeated h.2
  | fixed hmark hlength =>
    rw [Checker.elements_append hlength]
    rw [List.forall_mem_append] at h
    refine andThen (hP.positions _ _ h.1) ?_
    rw [Checker.arrayEnd_of_no_mark hmark]
    exact hP.positions _ _ h.2

end ShapeSchema
