import ShapeSchema.Proofs.Conformance.Positions
import ShapeSchema.Proofs.Schema.Correspondence

/-!
# Checks stop at the first thing that is wrong

A check reports the first violation in the order of the data: what comes before it passes, and what
comes after it is never looked at (`failsFast_of_check`). A lack of room is left out, because a
union that ends for it reports it from inside an alternative; any other violation inside a union is
dropped, and the union itself complains. So the steps of a report go through arrays and objects
alone, and for these `Schema.FailsFast` is carried from the parts to the whole.
-/

namespace ShapeSchema

/-! ## Where a run stops -/

namespace Schema

/-- A check on its own passes where the run conforms. -/
theorem passes_of_conforms {strict : Bool} {room : Int} {schema v : Value}
    (h : (run strict schema room v).verdict = .conforms) :
    Passes strict room schema v := fun start => by
  rw [check, h]
  rfl

end Schema

namespace Checker

variable {strict : Bool} {room : Int} {items : List Value}

/-- If some positions of an array are found to be wrong then it is the first of them that is
reported, and the elements before it pass. -/
theorem exists_position_of_violates {nodes : List Value} {count : Nat} {w : Violation}
    (hcount : ∀ i < count, i < items.length ∨ i = 0 ∧ items.length = 0)
    (h : (Run.forEach (position strict room nodes items) (List.range count)).verdict =
      .violates w) :
    ∃ i after node found, List.range count = List.range i ++ i :: after ∧
      (∀ j < i, ∃ node item, Schema.positionNode? nodes j = some node ∧ items[j]? = some item ∧
        Schema.Passes strict (room - 1) node item) ∧
      Schema.positionNode? nodes i = some node ∧
      (Schema.run strict node (room - 1) (items[i]?.getD .missing)).verdict = .violates found ∧
      w = found.under (.index i) := by
  obtain ⟨i, after, hrange, hearlier, hi⟩ := Run.exists_of_forEach_range_violates h
  have hlt : i < items.length ∨ i = 0 ∧ items.length = 0 :=
    hcount i (by rw [← List.mem_range, hrange]; simp)
  rw [position] at hi
  cases hnode : Schema.positionNode? nodes i with
  | none =>
    rw [hnode] at hi
    cases hi
  | some node =>
    rw [hnode] at hi
    obtain ⟨found, hfound, hw⟩ := Run.exists_of_under_violates hi
    refine ⟨i, after, node, found, hrange, fun j hj => ?_, hnode, hfound, hw⟩
    obtain ⟨part, hpart⟩ := Schema.exists_positionNode?_of_le (Nat.le_of_lt hj) hnode
    obtain ⟨item, hitem⟩ : ∃ item, items[j]? = some item :=
      ⟨_, List.getElem?_eq_getElem (by omega)⟩
    have hconforms := hearlier j hj
    rw [position, hpart, hitem] at hconforms
    exact ⟨part, item, hpart, hitem, Schema.passes_of_conforms (Run.under_conforms_iff.1 hconforms)⟩

/-- If a position ends badly then what comes behind it does not matter. -/
theorem forEach_position_eq_of_stop {nodes items' : List Value} {node : Value} {count i : Nat}
    {after : List Nat} (hrange : List.range count = List.range i ++ i :: after)
    (hnode : Schema.positionNode? nodes i = some node) (hfront : ∀ j < i, items'[j]? = items[j]?)
    (hhere : Schema.run strict node (room - 1) (items'[i]?.getD .missing) =
      Schema.run strict node (room - 1) (items[i]?.getD .missing))
    (hstop : (Schema.run strict node (room - 1) (items[i]?.getD .missing)).verdict ≠ .conforms) :
    Run.forEach (position strict room nodes items') (List.range count) =
      Run.forEach (position strict room nodes items) (List.range count) := by
  have hposition (us : List Value) : position strict room nodes us i =
      (Schema.run strict node (room - 1) (us[i]?.getD .missing)).under (.index i) := by
    rw [position, hnode]
    rfl
  have hbefore : ∀ j ∈ List.range i,
      position strict room nodes items' j = position strict room nodes items j := by
    intro j hj
    rw [position, position, hfront j (List.mem_range.1 hj)]
  have hsame : position strict room nodes items' i = position strict room nodes items i := by
    rw [hposition, hposition, hhere]
  have hstop' : (position strict room nodes items' i).verdict ≠ .conforms := by
    rw [hsame, hposition]
    exact fun hconforms => hstop (Run.under_conforms_iff.1 hconforms)
  rw [hrange, Run.forEach_eq_of_stop hbefore hsame hstop']

end Checker

/-! ## Values that differ behind some steps -/

namespace Value.SameUpTo

/-- Behind no step nothing differs. -/
theorem eq_of_nil {v v' : Value} (h : SameUpTo [] v v') : v = v' := by
  cases h
  rfl

/-- Sequences that differ behind an index have one length and the same elements in front of it. -/
theorem items? {v v' : Value} {items : List Value} {i : Nat} {steps : Location}
    (h : SameUpTo (.index i :: steps) v v') (hitems : v.items? = some items) :
    ∃ items', v'.items? = some items' ∧ items'.length = items.length ∧
      (∀ j < i, items'[j]? = items[j]?) ∧
      SameUpTo steps (items[i]?.getD .missing) (items'[i]?.getD .missing) := by
  have hsplit {before after after' : List Value} {item item' : Value}
      (hlength : after.length = after'.length) (rest : SameUpTo steps item item') :
      (before ++ item' :: after').length = (before ++ item :: after).length ∧
        (∀ j < before.length, (before ++ item' :: after')[j]? = (before ++ item :: after)[j]?) ∧
        SameUpTo steps ((before ++ item :: after)[before.length]?.getD .missing)
          ((before ++ item' :: after')[before.length]?.getD .missing) := by
    refine ⟨by simp [hlength], fun j hj => ?_, by simpa using rest⟩
    rw [List.getElem?_append_left hj, List.getElem?_append_left hj]
  cases h with
  | same => exact ⟨items, hitems, rfl, fun _ _ => rfl, .same _ _⟩
  | list hlength rest =>
    obtain rfl := Option.some.inj hitems
    exact ⟨_, rfl, hsplit hlength rest⟩
  | tuple hlength rest =>
    obtain rfl := Option.some.inj hitems
    exact ⟨_, rfl, hsplit hlength rest⟩

/-- Objects that differ behind a key have the same keys, and wherever an object has that key, the
entries in front are the same. -/
theorem object_append {before after : List (Value × Value)} {key item v' : Value}
    {steps : Location}
    (h : SameUpTo (.key key :: steps) (.object (before ++ (key, item) :: after)) v') :
    ∃ item' after', v' = .object (before ++ (key, item') :: after') ∧
      after.map Prod.fst = after'.map Prod.fst ∧ SameUpTo steps item item' := by
  generalize hv : Value.object (before ++ (key, item) :: after) = v at h
  cases h with
  | same => exact ⟨item, after, hv.symm, rfl, .same _ _⟩
  | @object front back back' _ other other' _ hkeys hkey rest =>
    -- The key may stand in the data more than once, but not behind the place that differs.
    rcases List.append_eq_append_iff.1 (Value.object.inj hv) with
      ⟨between, rfl, hback⟩ | ⟨between, rfl, hback⟩
    · cases between with
      | nil =>
        obtain ⟨hentry, rfl⟩ := List.cons.inj hback
        obtain rfl := congrArg Prod.snd hentry
        exact ⟨other', back', by simp, hkeys, rest⟩
      | cons e between =>
        obtain ⟨rfl, rfl⟩ := List.cons.inj hback
        refine ⟨item, between ++ (key, other') :: back', by simp, by simp [hkeys], .same _ _⟩
    · cases between with
      | nil =>
        obtain ⟨hentry, rfl⟩ := List.cons.inj hback
        obtain rfl := congrArg Prod.snd hentry
        exact ⟨other', back', by simp, hkeys, rest⟩
      | cons e between =>
        obtain ⟨rfl, rfl⟩ := List.cons.inj hback
        exact absurd (by simp) hkey

/-- Nothing differs behind a key that an object does not have. -/
theorem eq_of_absent {data : List (Value × Value)} {name : String} {steps : Location} {v' : Value}
    (h : SameUpTo (.key (.string name) :: steps) (.object data) v')
    (habsent : Entries.contains data (.string name) = false) : v' = .object data := by
  cases h with
  | same => rfl
  | object =>
    rw [Bool.eq_false_iff, Ne, Entries.contains_string_iff] at habsent
    exact absurd ⟨_, List.mem_append_right _ List.mem_cons_self, rfl⟩ habsent

end Value.SameUpTo

/-! ## The first thing that is wrong -/

namespace Schema

/-- If a run finds anything wrong but a lack of room, then the steps to it descend past what is in
order, and the run of a value that differs only behind them is the same. -/
def FailsFast (strict : Bool) (room : Int) (schema v : Value) : Prop :=
  ∀ w, (run strict schema room v).verdict = .violates w → w.problem ≠ .tooDeep →
    ∃ steps, w.location = steps ++ w.problem.baseSteps ∧ Descends strict room schema v steps ∧
      ∀ v', Value.SameUpTo steps v v' → run strict schema room v' = run strict schema room v

variable {strict : Bool} {room : Int} {schema v : Value}

/-- What is wrong with the whole value has no steps. -/
theorem FailsFast.of_location
    (h : ∀ w, (run strict schema room v).verdict = .violates w → w.problem ≠ .tooDeep →
      w.location = w.problem.baseSteps) : FailsFast strict room schema v := by
  refine fun w hw hproblem => ⟨[], h w hw hproblem, .here room schema v, fun v' hsame => ?_⟩
  rw [hsame.eq_of_nil]

/-- An array schema fails fast if its nodes do. -/
theorem FailsFast.array {nodes items : List Value} (hroom : ¬room < 0)
    (hnodes : schema.items? = some nodes) (hform : form nodes = .array)
    (hitems : v.items? = some items)
    (h : ∀ node ∈ nodes, ∀ u, FailsFast strict (room - 1) node u) :
    FailsFast strict room schema v := by
  intro w hw hproblem
  obtain ⟨count, wrong?, hcount, hwrong, helements⟩ :=
    Checker.exists_elements_eq_forEach strict room nodes items.length
  have hrun : ∀ u us, u.items? = some us → us.length = items.length →
      run strict schema room u =
        (Run.forEach (Checker.position strict room nodes us) (List.range count)).andThen fun _ =>
          wrong?.elim .conforming Run.problem := by
    intro u us hus hlength
    rw [run_of_items? strict room u hnodes, if_neg hroom, Checker.sequence_array hform,
      Checker.array, hus, ← helements us hlength]
  rw [hrun v items hitems rfl] at hw
  by_cases hpositions : (Run.forEach (Checker.position strict room nodes items)
      (List.range count)).verdict = .conforms
  · -- All positions are in order, and it is the length that is wrong.
    rw [Run.andThen, hpositions] at hw
    cases wrong? with
    | none => cases hw
    | some p =>
      obtain rfl := Verdict.violates.inj hw
      refine ⟨[], (hwrong p rfl).symm, .here room schema v, fun v' hsame => ?_⟩
      rw [hsame.eq_of_nil]
  · rw [Run.andThen_of_stop hpositions] at hw
    obtain ⟨i, after, node, found, hrange, hearlier, hnode, hfound, rfl⟩ :=
      Checker.exists_position_of_violates hcount hw
    obtain ⟨steps, hlocation, hdescends, hsame⟩ :=
      h node (mem_of_positionNode? hnode) _ found hfound hproblem
    refine ⟨.index i :: steps, ?_, ?_, fun v' hv' => ?_⟩
    · rw [Violation.under, hlocation]
      rfl
    · have hi := hcount i (by rw [← List.mem_range, hrange]; simp)
      exact .index hnodes hform hitems hearlier hnode (Value.stepsTo_position hitems hi) hdescends
    · obtain ⟨items', hitems', hlength, hfront, hitem⟩ := hv'.items? hitems
      have hstop : (run strict node (room - 1) (items[i]?.getD .missing)).verdict ≠ .conforms := by
        rw [hfound]
        simp
      rw [hrun v' items' hitems' hlength, hrun v items hitems rfl,
        Checker.forEach_position_eq_of_stop hrange hnode hfront (hsame _ hitem) hstop]

/-- What an object schema has nothing to say of is an entry that passes. -/
theorem entryPasses_of_conforms {strict : Bool} {room : Int} {entries : List (Value × Value)}
    {e : Value × Value}
    (h : (Checker.entry (strictness entries strict)
      (entries.map fun e => (e.1, node strict e.2)) room e).verdict = .conforms) :
    EntryPasses strict room entries e := by
  rw [Checker.entry_fields] at h
  cases hgoverning : governing? Value.isNull entries e.1 with
  | some part =>
    rw [hgoverning] at h
    exact .inr ⟨part, hgoverning, passes_of_conforms (Run.under_conforms_iff.1 h)⟩
  | none =>
    refine .inl ⟨hgoverning, ?_⟩
    rw [hgoverning] at h
    cases hstrictness : strictness entries strict with
    | false => rfl
    | true =>
      rw [hstrictness] at h
      cases h

/-- What is wrong with the declarations of an object schema lies at the object, or is a field of
it. -/
theorem location_of_objectVerdict {entries : List (Value × Value)} {w : Violation}
    (h : objectVerdict entries = .violates w) : w.location = w.problem.baseSteps := by
  rcases objectVerdict_violates_cases h with ⟨shown, rfl⟩ | ⟨base, -, rfl⟩
  · rfl
  · rfl

/-- Whether required keys are absent is told by the keys of the data. -/
theorem Provides.congr {entries data data' : List (Value × Value)}
    (hkeys : data.map Prod.fst = data'.map Prod.fst) (h : Provides data entries) :
    Provides data' entries := by
  intro e he name hname hreserved hoptional
  rw [← Entries.contains_congr hkeys]
  exact h e he name hname hreserved hoptional

/-- If the schema of an object is sound and no required key is absent then its entries are checked
in order. -/
theorem run_of_provides {entries data : List (Value × Value)} (hroom : ¬room < 0)
    (hsound : SoundNode (.object entries)) (hprovides : Provides data entries) :
    run strict (.object entries) room (.object data) =
      Run.forEach (Checker.entry (strictness entries strict)
        (entries.map fun e => (e.1, node strict e.2)) room) data := by
  rw [run_object, if_neg hroom, Checker.object, Value.entries?]
  rcases Checker.entries_cases strict entries (entries.map fun e => (e.1, node strict e.2)) room
    data with ⟨hunsound, -⟩ | ⟨-, name, ⟨e, he, hname, hreserved, hoptional⟩, hmissing, -⟩ |
      ⟨-, -, hentries⟩
  · exact absurd hsound hunsound
  · rw [hprovides e he name hname hreserved hoptional] at hmissing
    cases hmissing
  · exact hentries

/-- If an entry of the data ends badly then what comes behind it does not matter. -/
theorem run_object_eq_of_stop {entries before after after' : List (Value × Value)}
    {key item item' : Value} (hroom : ¬room < 0) (hsound : SoundNode (.object entries))
    (hprovides : Provides (before ++ (key, item) :: after) entries)
    (hkeys : after.map Prod.fst = after'.map Prod.fst)
    (hstop : (Checker.entry (strictness entries strict)
      (entries.map fun e => (e.1, node strict e.2)) room (key, item)).verdict ≠ .conforms)
    (hentry : Checker.entry (strictness entries strict)
        (entries.map fun e => (e.1, node strict e.2)) room (key, item) =
      Checker.entry (strictness entries strict)
        (entries.map fun e => (e.1, node strict e.2)) room (key, item')) :
    run strict (.object entries) room (.object (before ++ (key, item') :: after')) =
      run strict (.object entries) room (.object (before ++ (key, item) :: after)) := by
  have hprovides' : Provides (before ++ (key, item') :: after') entries :=
    hprovides.congr (by simp [hkeys])
  rw [run_of_provides hroom hsound hprovides, run_of_provides hroom hsound hprovides',
    Run.forEach_eq_of_stop (fun _ _ => rfl) hentry hstop]

/-- An object schema fails fast if its nodes do. -/
theorem FailsFast.object {entries data : List (Value × Value)} (hroom : ¬room < 0)
    (h : ∀ e ∈ entries, ∀ u, FailsFast strict (room - 1) e.2 u) :
    FailsFast strict room (.object entries) (.object data) := by
  intro w hw hproblem
  have hrun : run strict (.object entries) room (.object data) =
      Checker.entries strict entries (entries.map fun e => (e.1, node strict e.2)) room data := by
    rw [run_object, if_neg hroom]
    rfl
  rcases Checker.entries_cases strict entries (entries.map fun e => (e.1, node strict e.2)) room
    data with ⟨-, -, hentries⟩ | ⟨-, name, -, hmissing, hentries⟩ | ⟨hsound, hprovides, -⟩
  · rw [hrun, hentries] at hw
    refine ⟨[], location_of_objectVerdict hw, .here _ _ _, fun v' hsame => ?_⟩
    rw [hsame.eq_of_nil]
  · rw [hrun, hentries] at hw
    obtain rfl := Verdict.violates.inj hw
    refine ⟨[.key (.string name)], rfl, .absent hmissing, fun v' hsame => ?_⟩
    rw [hsame.eq_of_absent hmissing]
  · rw [run_of_provides hroom hsound hprovides] at hw
    obtain ⟨before, ⟨key, item⟩, after, rfl, hearlier, hentry⟩ := Run.exists_of_forEach_violates hw
    have hpasses : ∀ e ∈ before, EntryPasses strict room entries e :=
      fun e he => entryPasses_of_conforms (hearlier e he)
    have hstop : (Checker.entry (strictness entries strict)
        (entries.map fun e => (e.1, node strict e.2)) room (key, item)).verdict ≠ .conforms := by
      rw [hentry]
      simp
    rw [Checker.entry_fields] at hentry
    cases hgoverning : governing? Value.isNull entries key with
    | some part =>
      rw [hgoverning] at hentry
      obtain ⟨found, hfound, rfl⟩ := Run.exists_of_under_violates hentry
      obtain ⟨k, hmem⟩ := exists_mem_of_governing? hgoverning
      obtain ⟨steps, hlocation, hdescends, hsame⟩ := h _ hmem _ found hfound hproblem
      refine ⟨.key key :: steps, ?_, .key hprovides hpasses hgoverning hdescends, fun v' hv' => ?_⟩
      · rw [Violation.under, hlocation]
        rfl
      · obtain ⟨item', after', rfl, hkeys, hitem⟩ := hv'.object_append
        refine run_object_eq_of_stop hroom hsound hprovides hkeys hstop ?_
        rw [Checker.entry_fields, Checker.entry_fields, hgoverning]
        dsimp only
        rw [hsame _ hitem]
    | none =>
      rw [hgoverning] at hentry
      dsimp only at hentry
      split at hentry
      · obtain rfl := Verdict.violates.inj hentry
        refine ⟨[.key key], rfl, .uncovered hprovides hpasses hgoverning, fun v' hv' => ?_⟩
        obtain ⟨item', after', rfl, hkeys, hitem⟩ := hv'.object_append
        obtain rfl := hitem.eq_of_nil
        exact run_object_eq_of_stop hroom hsound hprovides hkeys hstop rfl
      · cases hentry

/-- A value that is too deep is not looked at. -/
theorem FailsFast.of_no_room (hroom : room < 0) : FailsFast strict room schema v := by
  intro w hw hproblem
  rw [run_of_neg strict schema hroom v] at hw
  obtain rfl := Verdict.violates.inj hw
  exact absurd rfl hproblem

/-- A sequence schema fails fast if its elements do. -/
theorem FailsFast.sequence {items : List Value} (hroom : ¬room < 0)
    (hitems : schema.items? = some items)
    (h : ∀ node ∈ items, ∀ u, FailsFast strict (room - 1) node u) :
    FailsFast strict room schema v := by
  -- Only an array schema goes down with a step.
  cases hform : form items with
  | enumeration =>
    refine .of_location fun w hw _ => ?_
    rw [run_of_items? strict room v hitems, if_neg hroom, Checker.sequence, hform] at hw
    dsimp only [Checker.enumeration] at hw
    split at hw
    · cases hw
    · rw [← Verdict.violates.inj hw]
      rfl
  | union =>
    refine .of_location fun w hw hproblem => ?_
    rw [run_of_items? strict room v hitems, if_neg hroom, Checker.sequence, hform] at hw
    obtain rfl := (Checker.attempt_violates_cases hw).resolve_right fun hdeep => hproblem hdeep.1
    rfl
  | array =>
    cases hv : v.items? with
    | some elements => exact .array hroom hitems hform hv h
    | none =>
      refine .of_location fun w hw _ => ?_
      rw [run_of_items? strict room v hitems, if_neg hroom, Checker.sequence_array hform,
        Checker.array, hv] at hw
      rw [← Verdict.violates.inj hw]
      rfl

/-- An object schema fails fast on what is no object. -/
theorem FailsFast.of_entries?_eq_none {entries : List (Value × Value)} (hroom : ¬room < 0)
    (hv : v.entries? = none) : FailsFast strict room (.object entries) v := by
  refine .of_location fun w hw _ => ?_
  rw [run_object, if_neg hroom, Checker.object, hv] at hw
  rw [← Verdict.violates.inj hw]
  rfl

/-- A schema that is no container fails fast. -/
theorem FailsFast.scalar (hroom : ¬room < 0) (hitems : schema.items? = none)
    (hentries : schema.entries? = none) : FailsFast strict room schema v := by
  refine .of_location fun w hw _ => ?_
  rw [run_scalar strict room v hitems hentries, if_neg hroom] at hw
  unfold Checker.scalar at hw
  split at hw
  · split at hw
    · split at hw
      · cases hw
      · rw [← Verdict.violates.inj hw]
        rfl
    · rw [← Verdict.violates.inj hw]
      rfl
  · rw [← Verdict.violates.inj hw]
    rfl

/-- Every schema fails fast. -/
theorem failsFast (strict : Bool) (room : Int) (schema v : Value) :
    FailsFast strict room schema v := by
  induction schema using induct_parts generalizing room v with
  | sequence schema items hitems ih =>
    by_cases hroom : room < 0
    · exact .of_no_room hroom
    · exact .sequence hroom hitems fun node hnode u => ih node hnode (room - 1) u
  | object entries ih =>
    by_cases hroom : room < 0
    · exact .of_no_room hroom
    · cases hv : v.entries? with
      | some data =>
        obtain rfl := Value.entries?_eq_some_iff.1 hv
        exact .object hroom fun e he u => ih e he (room - 1) u
      | none => exact .of_entries?_eq_none hroom hv
  | scalar schema hitems hentries =>
    by_cases hroom : room < 0
    · exact .of_no_room hroom
    · exact .scalar hroom hitems hentries

/-- **Checks stop at the first thing that is wrong.** If a check reports anything but a lack of
room, then the place that it reports lies where some steps lead, but for the name of a field that an
object schema declares twice; at each level, all that comes before the step in the data passes; and
any value that differs only behind the steps has the same answer and the same log. -/
theorem failsFast_of_check {strict : Bool} {schema : Value} {start : String} {limit : Int}
    {v : Value} {r : Report} (h : check strict schema start limit v = .report r)
    (hcode : r.code ≠ .string ReasonCode.maxDepthExceeded.text) :
    ∃ (w : Violation) (steps : Location), (run strict schema limit v).verdict = .violates w ∧
      r = w.report start limit ∧ w.location = steps ++ w.problem.baseSteps ∧
      Descends strict limit schema v steps ∧
      ∀ v', Value.SameUpTo steps v v' →
        check strict schema start limit v' = .report r ∧
          checkLog strict schema start limit v' = checkLog strict schema start limit v := by
  rw [check] at h
  cases hverdict : (run strict schema limit v).verdict with
  | violates w =>
    rw [hverdict] at h
    obtain rfl := Answer.report.inj h
    have hproblem : w.problem ≠ .tooDeep := by
      intro hdeep
      exact hcode (by rw [Violation.report, hdeep]; rfl)
    obtain ⟨steps, hlocation, hdescends, hsame⟩ :=
      failsFast strict limit schema v w hverdict hproblem
    refine ⟨w, steps, rfl, rfl, hlocation, hdescends, fun v' hv' => ?_⟩
    rw [check, checkLog, checkLog, hsame v' hv', hverdict]
    exact ⟨rfl, rfl⟩
  | conforms =>
    rw [hverdict] at h
    cases h
  | faults f =>
    rw [hverdict] at h
    cases h

/-- In the array under the first key the second element is wrong. Neither the third element nor the
item under the second key is looked at. -/
theorem failsFast_of_check_nested :
    check true (.object [(.string "a", .list [.string "string", .string "*"]),
        (.string "b", .string "integer")]) "$" 5
        (.object [(.string "a", .list [.string "x", .integer 5, .null]), (.string "b", .null)]) =
      .report ⟨"'$.a[1]': expected type 'string', got 'number'", .string "type_mismatch",
        .string "$.a[1]", []⟩ ∧
    ∃ (w : Violation) (steps : Location),
      (run true (.object [(.string "a", .list [.string "string", .string "*"]),
          (.string "b", .string "integer")]) 5
          (.object [(.string "a", .list [.string "x", .integer 5, .null]),
            (.string "b", .null)])).verdict = .violates w ∧
      (⟨"'$.a[1]': expected type 'string', got 'number'", .string "type_mismatch",
        .string "$.a[1]", []⟩ : Report) = w.report "$" 5 ∧
      w.location = steps ++ w.problem.baseSteps ∧
      Descends true 5 (.object [(.string "a", .list [.string "string", .string "*"]),
          (.string "b", .string "integer")])
        (.object [(.string "a", .list [.string "x", .integer 5, .null]), (.string "b", .null)])
        steps ∧
      ∀ v', Value.SameUpTo steps
          (.object [(.string "a", .list [.string "x", .integer 5, .null]), (.string "b", .null)])
          v' →
        check true (.object [(.string "a", .list [.string "string", .string "*"]),
            (.string "b", .string "integer")]) "$" 5 v' =
          .report ⟨"'$.a[1]': expected type 'string', got 'number'", .string "type_mismatch",
            .string "$.a[1]", []⟩ ∧
        checkLog true (.object [(.string "a", .list [.string "string", .string "*"]),
            (.string "b", .string "integer")]) "$" 5 v' =
          checkLog true (.object [(.string "a", .list [.string "string", .string "*"]),
              (.string "b", .string "integer")]) "$" 5
            (.object [(.string "a", .list [.string "x", .integer 5, .null]),
              (.string "b", .null)]) := by
  have hreport : check true (.object [(.string "a", .list [.string "string", .string "*"]),
      (.string "b", .string "integer")]) "$" 5
      (.object [(.string "a", .list [.string "x", .integer 5, .null]), (.string "b", .null)]) =
    .report ⟨"'$.a[1]': expected type 'string', got 'number'", .string "type_mismatch",
      .string "$.a[1]", []⟩ := rfl
  exact ⟨hreport, failsFast_of_check hreport (by simp [ReasonCode.text])⟩

end Schema

end ShapeSchema

