import Mathlib.Data.List.Forall2
import ShapeSchema.Proofs.Conformance.Parts

/-!
# Two checks in step

Claims about two checks of one value, under two limits say, or against two schemas of one shape, are
proved part by part. `Run.Simulation` says what a relation of runs needs in order to pass from the
parts of two nodes to the nodes, and `Node.InStep` when two nodes may stand for each other. Each
form of schema then has one lemma, and `Run.Simulation.sequence` and `Run.Simulation.object` put
them together.
-/

namespace ShapeSchema

/-- A relation of runs that is kept by all the ways in which runs are put together. -/
structure Run.Simulation (R : Run → Run → Prop) : Prop where
  /-- It relates a run without notes to itself, unless the run ends for lack of room, which is
  noted. -/
  silent : ∀ {verdict : Verdict}, ¬verdict.TooDeep → R (.silent verdict) (.silent verdict)
  /-- It goes along with runs to where they are seen from. -/
  under : ∀ (s : Step) {r r' : Run}, R r r' → R (r.under s) (r'.under s)
  /-- It is kept by runs one after the other. -/
  andThen : ∀ {r r' : Run} {next next' : Unit → Run}, R r r' → R (next ()) (next' ()) →
    R (r.andThen next) (r'.andThen next')
  /-- It is kept by runs one instead of the other. What the first run is called and what comes after
  it matter only where it rejects the value. -/
  orElse : ∀ {r r' : Run} {alternative alternative' : String} {next next' : Unit → Run}, R r r' →
    (r.verdict.Rejects → alternative = alternative' ∧ R (next ()) (next' ())) →
    R (r.orElse alternative next) (r'.orElse alternative' next')

/-- Two nodes that look alike from above and whose runs of any value are related, the first with one
room left for what is above it, the second with another. -/
structure Node.InStep (R : Run → Run → Prop) (room room' : Int) (n n' : Node) : Prop where
  /-- They have one label if the first ever rejects a value. Labels go deeper than a run may go, but
  where a run rejects a value it has seen all of the label. -/
  label : ∀ v, (n.check (room - 1) v).verdict.Rejects →
    Schema.label n.schema = Schema.label n'.schema
  /-- They mark the same repetition, if any. -/
  mark : Repetition.ofValue? n.schema = Repetition.ofValue? n'.schema
  /-- Both are absent, or none is. -/
  absent : n.schema.isNull = n'.schema.isNull
  /-- Their runs are related. -/
  check : ∀ v, R (n.check (room - 1) v) (n'.check (room' - 1) v)

namespace Run.Simulation

variable {R : Run → Run → Prop} {room room' : Int}

/-- It relates a run that ends well without notes to itself. -/
theorem conforming (hR : Simulation R) : R .conforming .conforming :=
  hR.silent Verdict.conforms_not_tooDeep

/-- It relates a run to itself that finds another problem at its start than lack of room. -/
theorem problem (hR : Simulation R) {p : Problem} (h : p ≠ .tooDeep) :
    R (.problem p) (.problem p) := hR.silent (Verdict.violates_not_tooDeep h)

/-- It is kept by a node that is no container. -/
theorem scalar (hR : Simulation R) (schema v : Value) :
    R (Checker.scalar schema room v) (Checker.scalar schema room' v) := by
  have hinvalid := hR.problem (p := .invalidNode schema.render) (by simp)
  unfold Checker.scalar
  split
  · split
    · split
      · exact hR.conforming
      · exact hR.problem (by simp)
    · exact hinvalid
  · exact hinvalid

/-- It is kept by the alternatives of a union. The labels of all of them are needed only where none
takes the value. -/
theorem attempt (hR : Simulation R) {alternatives alternatives' nodes nodes' : List Node}
    {v : Value}
    (hproblem : (∀ node ∈ nodes, (node.check (room - 1) v).verdict.Rejects) →
      Checker.unionProblem alternatives v = Checker.unionProblem alternatives' v)
    (h : List.Forall₂ (Node.InStep R room room') nodes nodes') :
    R (Checker.attempt alternatives room v nodes)
      (Checker.attempt alternatives' room' v nodes') := by
  induction h with
  | nil =>
    rw [Checker.attempt, Checker.attempt, hproblem fun node hn => absurd hn List.not_mem_nil]
    exact hR.problem (by simp [Checker.unionProblem])
  | cons hnode _ ih =>
    rw [Checker.attempt, Checker.attempt]
    refine hR.orElse (hnode.check v) fun hrejects => ⟨hnode.label v hrejects, ih fun hrest => ?_⟩
    exact hproblem (List.forall_mem_cons.2 ⟨hrejects, hrest⟩)

/-- Nodes in step that all reject a value have the same labels. -/
theorem map_label_eq {nodes nodes' : List Node} {v : Value}
    (h : List.Forall₂ (Node.InStep R room room') nodes nodes')
    (hrejects : ∀ node ∈ nodes, (node.check (room - 1) v).verdict.Rejects) :
    nodes.map (fun node => Schema.label node.schema) =
      nodes'.map (fun node => Schema.label node.schema) := by
  induction h with
  | nil => rfl
  | cons hnode _ ih =>
    rw [List.forall_mem_cons] at hrejects
    rw [List.map_cons, List.map_cons, hnode.label v hrejects.1, ih hrejects.2]

/-- It is kept by unions. -/
theorem union (hR : Simulation R) {alternatives alternatives' : List Node} {v : Value}
    (h : List.Forall₂ (Node.InStep R room room') alternatives alternatives') :
    R (Checker.union alternatives room v) (Checker.union alternatives' room' v) := by
  refine hR.attempt (fun hrejects => ?_) h
  rw [Checker.unionProblem, Checker.unionProblem, map_label_eq h hrejects]

/-- It is kept by elements position by position. -/
theorem positions (hR : Simulation R) {nodes nodes' : List Node} {start : Nat} {items : List Value}
    (h : List.Forall₂ (Node.InStep R room room') nodes nodes') :
    R (Checker.positions room start nodes items) (Checker.positions room' start nodes' items) := by
  induction h generalizing start items with
  | nil => exact hR.conforming
  | cons hnode _ ih =>
    cases items with
    | nil => exact hR.conforming
    | cons item items =>
      rw [Checker.positions_cons, Checker.positions_cons]
      exact hR.andThen (hR.under _ (hnode.check item)) ih

/-- It is kept by one node at all positions. -/
theorem repeated (hR : Simulation R) {node node' : Node} {start : Nat} {items : List Value}
    (h : Node.InStep R room room' node node') :
    R (Checker.repeated room start node items) (Checker.repeated room' start node' items) := by
  induction items generalizing start with
  | nil => exact hR.conforming
  | cons item items ih =>
    rw [Checker.repeated_cons, Checker.repeated_cons]
    exact hR.andThen (hR.under _ (h.check item)) ih

/-- It is kept by the end of an array. -/
theorem arrayEnd (hR : Simulation R) {node node' last last' : Node} {start : Nat}
    {items : List Value} (hnode : Node.InStep R room room' node node')
    (hlast : Node.InStep R room room' last last') :
    R (Checker.arrayEnd room start node last items)
      (Checker.arrayEnd room' start node' last' items) := by
  rw [Checker.arrayEnd, Checker.arrayEnd, hlast.mark]
  split
  · split
    · exact hR.problem (by simp)
    · exact hR.repeated hnode
  · exact hR.repeated hnode
  · split
    · exact hR.problem (by simp)
    · split
      · exact hR.problem (by simp)
      · exact hR.positions (.cons hnode (.cons hlast .nil))

/-- It is kept by the elements of an array schema. -/
theorem elements (hR : Simulation R) {nodes nodes' : List Node} {items : List Value}
    (h : List.Forall₂ (Node.InStep R room room') nodes nodes') :
    R (Checker.elements room nodes items) (Checker.elements room' nodes' items) := by
  have hreverse := List.forall₂_reverse_iff.2 h
  rw [Checker.elements, Checker.elements]
  -- The last two nodes stand in front of the reversed list.
  generalize nodes.reverse = reversed, nodes'.reverse = reversed' at hreverse
  rcases hreverse with _ | ⟨hlast, _ | ⟨hnode, hlead⟩⟩
  · dsimp only
    split
    · exact hR.conforming
    · exact hR.problem (by simp)
  · exact hR.under _ (hlast.check _)
  · dsimp only
    rw [hlead.length_eq]
    split
    · exact hR.problem (by simp)
    · exact hR.andThen (hR.positions (List.forall₂_reverse_iff.2 hlead)) (hR.arrayEnd hnode hlast)

/-- It is kept by sequences of one form: enumerations with the same members, and others with nodes
in step. -/
theorem sequence (hR : Simulation R) {items items' : List Value} {nodes nodes' : List Node}
    {v : Value} (hform : Schema.form items = Schema.form items')
    (hmembers : Schema.form items = .enumeration → items = items')
    (h : Schema.form items ≠ .enumeration →
      List.Forall₂ (Node.InStep R room room') nodes nodes') :
    R (Checker.sequence items nodes room v) (Checker.sequence items' nodes' room' v) := by
  rw [Checker.sequence, Checker.sequence, ← hform]
  cases hkind : Schema.form items with
  | enumeration =>
    rw [hmembers hkind]
    dsimp only
    rw [Checker.enumeration, Checker.enumeration]
    split
    · exact hR.conforming
    · exact hR.problem (by simp)
  | union => exact hR.union (List.forall₂_drop 1 (h (by simp [hkind])))
  | array =>
    dsimp only
    rw [Checker.array, Checker.array]
    split
    · exact hR.elements (h (by simp [hkind]))
    · exact hR.problem (by simp)

/-- It is kept by an entry of the data if what governs its key is in step. -/
theorem entry (hR : Simulation R) {refuses : Bool} {fields fields' : List (Value × Node)}
    {e : Value × Value}
    (h : Option.Rel (Node.InStep R room room')
      (Schema.governing? (fun node => node.schema.isNull) fields e.1)
      (Schema.governing? (fun node => node.schema.isNull) fields' e.1)) :
    R (Checker.entry refuses fields room e) (Checker.entry refuses fields' room' e) := by
  rw [Checker.entry, Checker.entry]
  generalize Schema.governing? _ fields e.1 = found, Schema.governing? _ fields' e.1 = found' at h ⊢
  cases h with
  | some hnode => exact hR.under _ (hnode.check e.2)
  | none =>
    dsimp only
    split
    · exact hR.silent (Verdict.violates_not_tooDeep (by simp))
    · exact hR.conforming

/-- It is kept by runs in order. -/
theorem forEach (hR : Simulation R) {α : Type} {run run' : α → Run} {as : List α}
    (h : ∀ a ∈ as, R (run a) (run' a)) : R (Run.forEach run as) (Run.forEach run' as) := by
  induction as with
  | nil => exact hR.conforming
  | cons a rest ih =>
    rw [Run.forEach_cons, Run.forEach_cons]
    exact hR.andThen (h a List.mem_cons_self) (ih fun b hb => h b (List.mem_cons_of_mem a hb))

/-- It is kept by object schemas with the same declarations if what governs each key is in step. The
strictness comes in only where the declarations are sound. -/
theorem object (hR : Simulation R) {strict strict' : Bool} {schema schema' : List (Value × Value)}
    {fields fields' : List (Value × Node)} {v : Value}
    (hverdict : Schema.objectVerdict schema = Schema.objectVerdict schema')
    (hrequired : Schema.requiredKeys schema = Schema.requiredKeys schema')
    (hstrictness : Schema.objectVerdict schema = .conforms →
      Schema.strictness schema strict = Schema.strictness schema' strict')
    (h : ∀ key, Option.Rel (Node.InStep R room room')
      (Schema.governing? (fun node => node.schema.isNull) fields key)
      (Schema.governing? (fun node => node.schema.isNull) fields' key)) :
    R (Checker.object strict schema fields room v)
      (Checker.object strict' schema' fields' room' v) := by
  rw [Checker.object, Checker.object]
  split
  · rw [Checker.entries, Checker.entries, ← hverdict, ← hrequired]
    split
    · split
      · exact hR.silent (Verdict.faults_not_tooDeep _)
      · split
        · exact hR.silent (Verdict.violates_not_tooDeep (by simp))
        · rw [hstrictness ‹_›]
          exact hR.forEach fun e _ => hR.entry (h e.1)
    · exact hR.silent (Schema.objectVerdict_not_tooDeep schema)
  · exact hR.problem (by simp)

/-- It relates every run to itself, if it does so where no room is left. -/
theorem run (hR : Simulation R) (hdeep : R .tooDeep .tooDeep) (strict : Bool) (schema : Value)
    (room : Int) (v : Value) :
    R (Schema.run strict schema room v) (Schema.run strict schema room v) := by
  induction schema using Schema.induct_parts generalizing room v with
  | sequence schema items hitems ih =>
    rw [Schema.run_of_items? strict room v hitems]
    split
    · exact hdeep
    · refine hR.sequence rfl (fun _ => rfl) fun _ => List.forall₂_same.2 fun n hn => ?_
      obtain ⟨part, hpart, rfl⟩ := List.mem_map.1 hn
      exact ⟨fun _ _ => rfl, rfl, rfl, fun w => ih part hpart (room - 1) w⟩
  | object entries ih =>
    rw [Schema.run_object]
    split
    · exact hdeep
    · refine hR.object rfl rfl (fun _ => rfl) fun key => ?_
      rw [Schema.governing?_fields]
      cases hgoverning : Schema.governing? Value.isNull entries key with
      | some part =>
        obtain ⟨k, hmem⟩ := Schema.exists_mem_of_governing? hgoverning
        exact .some ⟨fun _ _ => rfl, rfl, rfl, fun w => ih _ hmem (room - 1) w⟩
      | none => exact .none
  | scalar schema hitems hentries =>
    rw [Schema.run_scalar strict room v hitems hentries]
    split
    · exact hdeep
    · exact hR.scalar schema v

end Run.Simulation

end ShapeSchema
