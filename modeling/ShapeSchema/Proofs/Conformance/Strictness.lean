import ShapeSchema.Proofs.Conformance.SameRun
import ShapeSchema.Proofs.Schema.Rewriting

/-!
# Strictness as a default

Whether uncovered keys are refused is told by an object schema itself, and by the caller for the
objects that say nothing. So a caller might as well have declared the strictness of those objects
(`check_annotate`): an object that declares its own passes on to the objects below it what the
caller said and not what it declares.

The proof has two halves. Declaring what the caller says changes no run (`sameRun_annotate`), since
the entry that is added declares no field and is not asked for under any key of the data. And what
the caller says makes no difference to a schema in which all objects declare their strictness
(`run_of_declaresStrictness`).
-/

namespace ShapeSchema.Schema

variable {strict : Bool}

/-! ## Declaring what the caller says -/

/-- An object has the same runs with its strictness declared. -/
theorem sameRun_withStrictness {entries : List (Value × Value)}
    (h : Entries.contains entries (.string (optionalKey strictKey)) = false) (room : Int) :
    SameRun strict room (.object entries) (.object (withStrictness strict entries)) := by
  refine fun v => ⟨?_, fun _ => rfl⟩
  rw [run_object, run_object, Run.simulation_eq.object (objectVerdict_withStrictness h)
    requiredKeys_withStrictness (fun _ => strictness_withStrictness) fun key => ?_]
  rw [governing?_fields, governing?_fields, ← governing?_withStrictness]
  cases governing? Value.isNull entries key with
  | some node => exact .some ((SameRun.refl strict _ node).inStep (.refl node))
  | none => exact .none

/-- A schema has the same runs with the strictness declared that the caller names. -/
theorem sameRun_annotate {schema : Value} (h : EveryNode NoStrictnessField schema) (room : Int) :
    SameRun strict room schema (annotate strict schema) := by
  induction schema using induct_children generalizing room with
  | step schema ih =>
    have hrefl (node : Value) : LookAlike node node ∧ SameRun strict (room - 1) node node :=
      ⟨.refl node, .refl strict _ node⟩
    have hchildren : ∀ child ∈ children schema, LookAlike child (annotate strict child) ∧
        SameRun strict (room - 1) child (annotate strict child) := fun child hmem =>
      ⟨lookAlike_annotate child, ih child hmem (h.child hmem) (room - 1)⟩
    rcases kinds schema with ⟨items, hitems⟩ | ⟨entries, rfl⟩ | ⟨hitems, hentries⟩
    · have hitems' := annotate_items? strict hitems
      by_cases hform : form items = .enumeration
      · rw [if_pos hform] at hitems'
        exact .of_items? hitems hitems'
      · rw [if_neg hform] at hitems'
        exact .sequence hitems hitems' hform (forall₂_everywhere hrefl hitems hform hchildren)
    · -- The items change first, and then the object declares its own strictness.
      have hparts := forall₂_itemEverywhere
        (R := fun node node' => LookAlike node node' ∧ SameRun strict (room - 1) node node')
        hrefl hchildren
      obtain ⟨hkeys, -⟩ := Entries.forall₂_iff_zip.1 hparts
      have hitems : SameRun strict room (.object entries) (.object
          (entries.map fun e => (e.1, itemEverywhere (declareStrictness strict) e))) :=
        .object hkeys (get?_strictKey_itemEverywhere entries).symm fun key =>
          Entries.get?_rel (hparts.imp fun _ _ hpart => ⟨hpart.1, fun _ => hpart.2⟩)
      rw [annotate_object]
      refine hitems.trans (sameRun_withStrictness ?_ room)
      rw [← Entries.contains_congr hkeys]
      exact h.root entries rfl
    · rw [annotate, everywhere_scalar hitems hentries]
      exact .refl strict room schema

/-! ## Declared strictness -/

/-- Where an object schema with sound declarations declares its strictness, it refuses the same keys
whatever the caller says. -/
theorem strictness_of_declares {entries : List (Value × Value)}
    (hdeclares : declaresStrictness entries = true) (h : objectVerdict entries = .conforms)
    (strict strict' : Bool) : strictness entries strict = strictness entries strict' := by
  obtain ⟨-, hsound⟩ := soundNode_object_iff.1 (objectVerdict_eq_conforms_iff.1 h)
  rw [declaresStrictness] at hdeclares
  obtain ⟨declared, hget, hnull⟩ := (Option.any_eq_true _ _).1 hdeclares
  rcases hsound.strictness declared hget with rfl | ⟨b, rfl⟩
  · exact absurd hnull (by decide)
  · rw [strictness, strictness, hget]

/-- What the caller says makes no difference where all objects declare their strictness. -/
theorem run_of_declaresStrictness {schema : Value} (h : EveryNode DeclaresStrictness schema)
    (strict strict' : Bool) (room : Int) (v : Value) :
    run strict schema room v = run strict' schema room v := by
  have hR := Run.simulation_eq
  induction schema using induct_children generalizing room v with
  | step schema ih =>
    have hchildren : ∀ child ∈ children schema,
        Node.InStep (· = ·) room room (node strict child) (node strict' child) := fun child hmem =>
      ⟨fun _ _ => rfl, rfl, rfl, ih child hmem (h.child hmem) (room - 1)⟩
    rcases kinds schema with ⟨items, hitems⟩ | ⟨entries, rfl⟩ | ⟨hitems, hentries⟩
    · rw [run_of_items? strict room v hitems, run_of_items? strict' room v hitems,
        hR.sequence rfl (fun _ => rfl) fun hform => ?_]
      rw [List.forall₂_map_left_iff, List.forall₂_map_right_iff, List.forall₂_same]
      refine forall_mem_of_children hitems hform hchildren fun part hpart =>
        ⟨fun _ _ => rfl, rfl, rfl, fun w => ?_⟩
      -- What is no container has no use for what the caller says.
      obtain ⟨hitems, hentries⟩ := Value.isContainer_eq_false_iff.1 hpart
      exact (run_scalar strict _ w hitems hentries).trans
        (run_scalar strict' _ w hitems hentries).symm
    · have hstrictness (hsound : objectVerdict entries = .conforms) :
          strictness entries strict = strictness entries strict' :=
        strictness_of_declares (h.root entries rfl) hsound strict strict'
      rw [run_object, run_object, hR.object rfl rfl hstrictness fun key => ?_]
      rw [governing?_fields, governing?_fields]
      cases hgoverning : governing? Value.isNull entries key with
      | some part => exact .some (hchildren part (governing?_mem_children hgoverning))
      | none => exact .none
    · rw [run_scalar strict room v hitems hentries, run_scalar strict' room v hitems hentries]

/-! ## Checks -/

/-- **What the caller says of strictness is a default.** A check has the same answer and logs the
same lines if the caller's strictness is declared for all objects that declare none, whatever the
caller says then; and where all objects declare their strictness it makes no difference what the
caller says. -/
theorem check_annotate (strict strict' : Bool) (schema : Value) (start : String) (limit : Int)
    (v : Value) :
    (EveryNode NoStrictnessField schema →
      check strict' (annotate strict schema) start limit v = check strict schema start limit v ∧
        checkLog strict' (annotate strict schema) start limit v =
          checkLog strict schema start limit v) ∧
    (EveryNode DeclaresStrictness schema →
      check strict' schema start limit v = check strict schema start limit v ∧
        checkLog strict' schema start limit v = checkLog strict schema start limit v) := by
  simp only [check, checkLog]
  refine ⟨fun h => ?_, fun h => ?_⟩
  · have hannotated := everyNode_declaresStrictness_annotate strict schema
    rw [run_of_declaresStrictness hannotated strict' strict, ← (sameRun_annotate h limit v).1]
    exact ⟨rfl, rfl⟩
  · rw [run_of_declaresStrictness h strict' strict]
    exact ⟨rfl, rfl⟩

/-- An object that declares itself lenient takes an uncovered key, and the object below it, which
declares nothing, refuses one as the caller has said. -/
theorem check_annotate_override :
    (EveryNode NoStrictnessField (.object [(.string "a", .object [(.string "_strict",
        .boolean false), (.string "b", .object [])])]) ∧
      check false (annotate true (.object [(.string "a", .object [(.string "_strict",
          .boolean false), (.string "b", .object [])])])) "$" 5
          (.object [(.string "a", .object [(.string "c", .null),
            (.string "b", .object [(.string "d", .null)])])]) =
        .report ⟨"'$.a.b.d': unrecognized key", .string "unrecognized_key", .string "$.a.b.d",
          []⟩) ∧
    (EveryNode DeclaresStrictness (.list [.object [(.string "_strict", .boolean true)]]) ∧
      check false (.list [.object [(.string "_strict", .boolean true)]]) "$" 5
          (.list [.object [(.string "c", .null)]]) =
        check true (.list [.object [(.string "_strict", .boolean true)]]) "$" 5
          (.list [.object [(.string "c", .null)]])) := by
  have hfields : EveryNode NoStrictnessField (.object [(.string "a", .object [(.string "_strict",
      .boolean false), (.string "b", .object [])])]) := by
    have hnode {entries : List (Value × Value)}
        (h : Entries.contains entries (.string (optionalKey strictKey)) = false) :
        NoStrictnessField (.object entries) := fun _ hentries => Value.object.inj hentries ▸ h
    refine everyNode_of_children (hnode (by decide)) fun child hchild => ?_
    obtain rfl := List.mem_singleton.1 hchild
    refine everyNode_of_children (hnode (by decide)) fun child hchild => ?_
    obtain rfl := List.mem_singleton.1 hchild
    exact everyNode_of_children (hnode (by decide)) fun child hchild =>
      absurd hchild List.not_mem_nil
  have hdeclares : EveryNode DeclaresStrictness
      (.list [.object [(.string "_strict", .boolean true)]]) := by
    refine everyNode_of_children nofun fun child hchild => ?_
    obtain rfl := List.mem_singleton.1 hchild
    refine everyNode_of_children (fun entries hentries => ?_) fun child hchild =>
      absurd hchild List.not_mem_nil
    obtain rfl := Value.object.inj hentries
    decide
  exact ⟨⟨hfields, ((check_annotate true false _ "$" 5 _).1 hfields).1.trans rfl⟩,
    hdeclares, ((check_annotate true false _ "$" 5 _).2 hdeclares).1⟩

end ShapeSchema.Schema
