import ShapeSchema.Proofs.Conformance.Simulation
import ShapeSchema.Proofs.Schema.Correspondence

/-!
# Schemas with the same runs

Two schemas say the same if the runs of any value against them are the same, log and all. `SameRun`
asks besides that they have one label wherever they reject a value, because a union names the labels
of its alternatives then; with that it is carried from the elements of sequences and from the
entries of object schemas to the whole (`SameRun.sequence`, `SameRun.object`).

For any relation of runs, `Run.Simulation.object_of_get?` carries it from what is found in two
object schemas under each key to the schemas.
-/

namespace ShapeSchema

/-- Equality passes from the parts of nodes to the nodes. -/
theorem Run.simulation_eq : Run.Simulation (· = ·) where
  silent _ := rfl
  under s := congrArg (Run.under s)
  andThen := by
    rintro r _ next next' rfl hnext
    rw [Run.andThen, Run.andThen, hnext]
  orElse := by
    rintro r _ alternative alternative' next next' rfl h
    rw [Run.orElse, Run.orElse]
    split
    · split
      · rfl
      · rename_i v hv hproblem
        obtain ⟨rfl, hnext⟩ := h ⟨v, hv, hproblem⟩
        rw [hnext]
    · rfl

/-- It is kept by object schemas with the same declarations if what is found in them is in step. -/
theorem Run.Simulation.object_of_get? {R : Run → Run → Prop} (hR : Run.Simulation R)
    {strict : Bool} {room room' : Int} {entries entries' : List (Value × Value)} {v : Value}
    (hkeys : entries.map Prod.fst = entries'.map Prod.fst)
    (hstrict : Entries.get? entries (.string Schema.strictKey) =
      Entries.get? entries' (.string Schema.strictKey))
    (hget : ∀ key, Option.Rel (fun part part' => Node.InStep R room room'
        (Schema.node strict part) (Schema.node strict part'))
      (Entries.get? entries key) (Entries.get? entries' key)) :
    R (Checker.object strict entries (entries.map fun e => (e.1, Schema.node strict e.2)) room v)
      (Checker.object strict entries' (entries'.map fun e => (e.1, Schema.node strict e.2)) room'
        v) := by
  have hstrictness : Schema.strictness entries strict = Schema.strictness entries' strict := by
    rw [Schema.strictness, Schema.strictness, hstrict]
  refine hR.object (Schema.objectVerdict_congr hkeys hstrict) (Schema.requiredKeys_congr hkeys)
    (fun _ => hstrictness) fun key => ?_
  rw [Schema.governing?_fields, Schema.governing?_fields]
  have hkey : Option.Rel _ (Schema.governing? Value.isNull entries key)
      (Schema.governing? Value.isNull entries' key) :=
    Schema.governing?_rel (fun _ _ hpart => hpart.absent) hget key
  generalize Schema.governing? Value.isNull entries key = found,
    Schema.governing? Value.isNull entries' key = found' at hkey
  cases hkey with
  | some hpart => exact .some hpart
  | none => exact .none

namespace Schema

/-- The label of a union names the alternatives. -/
theorem label_of_items? {schema : Value} {items : List Value} (h : schema.items? = some items) :
    label schema =
      match form items with
      | .enumeration => enumerationLabel (items.drop 1)
      | .union => unionLabel ((items.drop 1).map label)
      | .array => "array" := by
  rw [List.map_drop, ← labels_eq_map]
  rcases Value.items?_eq_some_iff.1 h with rfl | rfl <;> rfl

/-- If a union rejects a value then so does each of its alternatives. -/
theorem rejects_of_union {strict : Bool} {schema : Value} {items : List Value} {room : Int}
    {v : Value} (hitems : schema.items? = some items) (hform : form items = .union)
    (h : (run strict schema room v).verdict.Rejects) :
    ∀ n ∈ (items.drop 1).map (node strict), (n.check (room - 1) v).verdict.Rejects := by
  obtain ⟨alternatives, rfl⟩ := form_eq_union_iff.1 hform
  rw [run_of_items? strict room v hitems] at h
  split at h
  · exact absurd h Run.tooDeep_not_rejects
  · rw [Checker.sequence_union, Checker.union, Checker.attempt_rejects_iff] at h
    exact h

/-- The runs of any value against two schemas are the same, and if they reject it then the schemas
have the same label. -/
def SameRun (strict : Bool) (room : Int) (schema schema' : Value) : Prop :=
  ∀ v, run strict schema room v = run strict schema' room v ∧
    ((run strict schema room v).verdict.Rejects → label schema = label schema')

/-- Every schema has the same runs as itself. -/
theorem SameRun.refl (strict : Bool) (room : Int) (schema : Value) :
    SameRun strict room schema schema := fun _ => ⟨rfl, fun _ => rfl⟩

/-- What has the same runs as the second of two schemas with the same runs has the runs of the
first. -/
theorem SameRun.trans {strict : Bool} {room : Int} {schema schema' schema'' : Value}
    (h : SameRun strict room schema schema') (h' : SameRun strict room schema' schema'') :
    SameRun strict room schema schema'' := by
  intro v
  obtain ⟨hrun, hlabel⟩ := h v
  obtain ⟨hrun', hlabel'⟩ := h' v
  exact ⟨hrun.trans hrun', fun hrejects => (hlabel hrejects).trans (hlabel' (hrun ▸ hrejects))⟩

/-- Sequences of the same elements have the same runs. -/
theorem SameRun.of_items? {strict : Bool} {room : Int} {schema schema' : Value} {items : List Value}
    (hitems : schema.items? = some items) (hitems' : schema'.items? = some items) :
    SameRun strict room schema schema' := by
  refine fun v => ⟨?_, fun _ => ?_⟩
  · rw [run_of_items? strict room v hitems, run_of_items? strict room v hitems']
  · rw [label_of_items? hitems, label_of_items? hitems']

/-- Nodes that look alike and have the same runs are in step. -/
theorem SameRun.inStep {strict : Bool} {room : Int} {schema schema' : Value}
    (hlook : LookAlike schema schema') (h : SameRun strict (room - 1) schema schema') :
    Node.InStep (· = ·) room room (node strict schema) (node strict schema') where
  label v := (h v).2
  mark := hlook.mark
  absent := hlook.absent
  check v := (h v).1

/-- Sequences have the same runs if their elements look alike and have the same runs. -/
theorem SameRun.sequence {strict : Bool} {room : Int} {schema schema' : Value}
    {items items' : List Value} (hitems : schema.items? = some items)
    (hitems' : schema'.items? = some items') (hform : form items ≠ .enumeration)
    (h : List.Forall₂ (fun node node' => LookAlike node node' ∧
      SameRun strict (room - 1) node node') items items') :
    SameRun strict room schema schema' := by
  have hlook := form_congr (h.imp fun _ _ hpart => hpart.1)
  have hnodes : List.Forall₂ (Node.InStep (· = ·) room room) (items.map (node strict))
      (items'.map (node strict)) := by
    rw [List.forall₂_map_left_iff, List.forall₂_map_right_iff]
    exact h.imp fun _ _ hpart => hpart.2.inStep hpart.1
  refine fun v => ⟨?_, fun hrejects => ?_⟩
  · rw [run_of_items? strict room v hitems, run_of_items? strict room v hitems',
      Run.simulation_eq.sequence hlook (fun henum => absurd henum hform) fun _ => hnodes]
  · rw [label_of_items? hitems, label_of_items? hitems', ← hlook]
    cases hkind : form items with
    | enumeration => exact absurd hkind hform
    | array => rfl
    | union =>
      have hlabels := Run.Simulation.map_label_eq (List.forall₂_drop 1 hnodes)
        (List.map_drop ▸ rejects_of_union hitems hkind hrejects)
      rw [← List.map_drop, ← List.map_drop, List.map_map, List.map_map] at hlabels
      exact congrArg unionLabel hlabels

/-- Object schemas have the same runs if they have the same declarations and if what is found in
them has the same runs. -/
theorem SameRun.object {strict : Bool} {room : Int} {entries entries' : List (Value × Value)}
    (hkeys : entries.map Prod.fst = entries'.map Prod.fst)
    (hstrict : Entries.get? entries (.string strictKey) =
      Entries.get? entries' (.string strictKey))
    (hget : ∀ key, Option.Rel (fun node node' => LookAlike node node' ∧
        SameRun strict (room - 1) node node')
      (Entries.get? entries key) (Entries.get? entries' key)) :
    SameRun strict room (.object entries) (.object entries') := by
  refine fun v => ⟨?_, fun _ => rfl⟩
  rw [run_object, run_object, Run.simulation_eq.object_of_get? hkeys hstrict fun key =>
    option_rel_imp (fun _ _ hpart => hpart.2.inStep hpart.1) (hget key)]

end Schema

end ShapeSchema
