import Mathlib.Logic.Function.Iterate
import ShapeSchema.Proofs.Conformance.DepthLimit
import ShapeSchema.Proofs.Conformance.SameRun

/-!
# The depth limit as a horizon

What lies deeper than the depth limit cannot be seen: schemas that agree down to the limit have the
same answers under it, down to the wording of every message and every line that is logged. A schema
that contains itself has no end, but its unrollings that go as deep as the limit agree with one
another down to there (`Context.unrolls`). `answers_of_agreeTo` says both.

The limit guards every step of a run but not the labels of schemas, which look into unions at any
depth. A label is asked for only where the schema has rejected a value, and then the run has been
through all of the alternatives that the label names (`run_of_agreeTo`).
-/

namespace ShapeSchema.Schema

/-- Schemas that agree down to a depth look alike. -/
theorem AgreeTo.lookAlike {depth : Int} {schema schema' : Value}
    (h : AgreeTo depth schema schema') : LookAlike schema schema' := by
  cases h with
  | same => exact .refl _
  | deeper _ hschema hschema' => exact .of_isContainer hschema hschema'
  | sequence hitems hitems' =>
    exact .of_isContainer (by simp [Value.isContainer, Value.isSequence, hitems])
      (by simp [Value.isContainer, Value.isSequence, hitems'])
  | object => exact .of_isContainer rfl rfl

/-- Object schemas that differ only in their nodes declare the same strictness. -/
theorem get?_strictKey_congr {entries entries' : List (Value × Value)}
    (hkeys : entries.map Prod.fst = entries'.map Prod.fst)
    (others : ∀ p ∈ entries.zip entries', isNodeEntry p.1.1 p.1.2 = false → p.1.2 = p.2.2) :
    Entries.get? entries (.string strictKey) = Entries.get? entries' (.string strictKey) := by
  have hparts := (Entries.forall₂_iff_zip
    (R := fun e e' => isNodeEntry e.1 e.2 = false → e.2 = e'.2)).2 ⟨hkeys, others⟩
  refine Entries.get?_congr (hparts.imp fun e e' h => ⟨h.1, fun halike => h.2 ?_⟩)
  rw [(Value.alike_string_iff _ _).1 halike]
  rfl

/-- Object schemas that differ only in their nodes correspond item by item in whatever each node has
in common with itself. -/
theorem forall₂_items {R : Value → Value → Prop} {entries entries' : List (Value × Value)}
    (hrefl : ∀ node, R node node) (hkeys : entries.map Prod.fst = entries'.map Prod.fst)
    (nodes : ∀ p ∈ entries.zip entries', isNodeEntry p.1.1 p.1.2 = true → R p.1.2 p.2.2)
    (others : ∀ p ∈ entries.zip entries', isNodeEntry p.1.1 p.1.2 = false → p.1.2 = p.2.2) :
    List.Forall₂ (fun e e' => e.1 = e'.1 ∧ R e.2 e'.2) entries entries' := by
  refine (Entries.forall₂_iff_zip (R := fun e e' => R e.2 e'.2)).2 ⟨hkeys, fun p hp => ?_⟩
  cases hnode : isNodeEntry p.1.1 p.1.2 with
  | true => exact nodes p hp hnode
  | false =>
    rw [others p hp hnode]
    exact hrefl _

/-! ## Checks -/

/-- Schemas that agree down to a depth have the same runs with room for that depth. -/
theorem run_of_agreeTo (strict : Bool) {depth : Int} {schema schema' : Value}
    (h : AgreeTo depth schema schema') : SameRun strict depth schema schema' := by
  induction h with
  | same => exact .refl _ _ _
  | deeper hdepth =>
    intro v
    rw [run_of_neg strict _ hdepth, run_of_neg strict _ hdepth]
    exact ⟨rfl, fun hrejects => absurd hrejects Run.tooDeep_not_rejects⟩
  | sequence hitems hitems' hform hlength parts ih =>
    refine .sequence hitems hitems' hform (List.forall₂_iff_zip.2 ⟨hlength, fun hp => ?_⟩)
    exact ⟨(parts _ hp).lookAlike, ih _ hp⟩
  | @object depth _ _ hkeys nodes others ih =>
    have hitems := forall₂_items
      (R := fun node node' => LookAlike node node' ∧ SameRun strict (depth - 1) node node')
      (fun node => ⟨.refl node, .refl strict _ node⟩) hkeys
      (fun p hp hnode => ⟨(nodes p hp hnode).lookAlike, ih p hp hnode⟩) others
    exact .object hkeys (get?_strictKey_congr hkeys others) fun key =>
      Entries.get?_rel (hitems.imp fun _ _ h => ⟨h.1, fun _ => h.2⟩)

/-- Schemas that agree down to a depth are audited alike with room for that depth. -/
theorem audit_of_agreeTo {depth : Int} {schema schema' : Value}
    (h : AgreeTo depth schema schema') : SameAudit depth schema schema' := by
  induction h with
  | same => exact rfl
  | deeper hdepth => rw [SameAudit, audit_eq, audit_eq, if_pos hdepth, if_pos hdepth]
  | sequence hitems hitems' _ hlength parts ih =>
    have hlook := List.forall₂_iff_zip.2 ⟨hlength, fun hp => (parts _ hp).lookAlike⟩
    have haudits := List.forall₂_iff_zip.2 ⟨hlength, fun hp => ih _ hp⟩
    refine .node ((nodeVerdict_of_items? hitems).trans (nodeVerdict_of_items? hitems').symm) ?_
    rw [childSteps_of_items? hitems, childSteps_of_items? hitems']
    exact sequenceSteps_rel hlook haudits
  | @object depth _ _ hkeys nodes others ih =>
    have hitems := forall₂_items
      (R := fun node node' => LookAlike node node' ∧ SameAudit (depth - 1) node node')
      (fun node => ⟨.refl node, rfl⟩) hkeys
      (fun p hp hnode => ⟨(nodes p hp hnode).lookAlike, ih p hp hnode⟩) others
    exact .node (objectVerdict_congr hkeys (get?_strictKey_congr hkeys others))
      (objectSteps_rel hitems)

/-! ## Answers -/

/-- Under the limit, a check of any value has the same answer against both schemas and logs the same
lines, and the audits of both have the same answer. -/
def SameAnswers (limit : Int) (schema schema' : Value) : Prop :=
  ∀ (strict : Bool) (start : String) (v : Value),
    check strict schema start limit v = check strict schema' start limit v ∧
      checkLog strict schema start limit v = checkLog strict schema' start limit v ∧
      checkSchema schema start limit = checkSchema schema' start limit

/-- Schemas that agree down to the limit have the same answers. -/
theorem sameAnswers_of_agreeTo {limit : Int} {schema schema' : Value}
    (h : AgreeTo limit schema schema') : SameAnswers limit schema schema' := by
  intro strict start v
  have hrun := (run_of_agreeTo strict h v).1
  have haudit : audit schema limit = audit schema' limit := audit_of_agreeTo h
  rw [check, check, checkLog, checkLog, checkSchema, checkSchema, hrun, haudit]
  exact ⟨rfl, rfl, rfl⟩

/-- Schemas that agree down to a depth agree down to any lesser one. -/
theorem AgreeTo.of_le {depth depth' : Int} {schema schema' : Value}
    (h : AgreeTo depth schema schema') (hdepth : depth' ≤ depth) :
    AgreeTo depth' schema schema' := by
  induction h generalizing depth' with
  | same => exact .same _ _
  | deeper hnegative hschema hschema' => exact .deeper (by omega) hschema hschema'
  | sequence hitems hitems' hform hlength _ ih =>
    exact .sequence hitems hitems' hform hlength fun p hp => ih p hp (by omega)
  | object hkeys _ others ih =>
    exact .object hkeys (fun p hp hnode => ih p hp hnode (by omega)) others

/-- All unrollings that go as deep as the limit have the same answers. -/
theorem sameAnswers_of_unrolls {limit : Int} {unrolled : Nat → Value} (h : Unrolls unrolled)
    {n : Nat} (hn : limit ≤ n) (more : Nat) :
    SameAnswers limit (unrolled n) (unrolled (n + more)) := by
  induction more with
  | zero => exact fun strict start v => ⟨rfl, rfl, rfl⟩
  | succ more ih =>
    have hstep := sameAnswers_of_agreeTo ((h (n + more)).of_le (show limit ≤ _ by omega))
    intro strict start v
    obtain ⟨hcheck, hlog, haudit⟩ := ih strict start v
    obtain ⟨hcheck', hlog', haudit'⟩ := hstep strict start v
    exact ⟨hcheck.trans hcheck', hlog.trans hlog', haudit.trans haudit'⟩

/-- Containers that agree down to a depth make schemas that agree down to that depth below the
hole. -/
theorem AgreeTo.fill (C : Context) {depth : Int} {node node' : Value}
    (hnode : node.isContainer = true) (h : AgreeTo depth node node') :
    AgreeTo (C.depth + depth) (C.fill node) (C.fill node') := by
  -- With the node a sequence keeps its form, since no container tells one.
  have hsequence (inner : Context) (before after : List Value) {schema schema' : Value}
      (hitems : schema.items? = some (before ++ inner.fill node :: after))
      (hitems' : schema'.items? = some (before ++ inner.fill node' :: after))
      (hform : form before ≠ .enumeration)
      (ih : AgreeTo (inner.depth + depth) (inner.fill node) (inner.fill node')) :
      AgreeTo (inner.depth + 1 + depth) schema schema' := by
    have hhead := (look_of_isContainer (inner.isContainer_fill hnode)).2.2
    have hparts := forall₂_append_cons (AgreeTo.same (inner.depth + depth)) before ih after
    obtain ⟨hlength, hparts⟩ := List.forall₂_iff_zip.1 hparts
    refine .sequence hitems hitems' (form_append_cons before hhead after ▸ hform) hlength ?_
    rw [show inner.depth + 1 + depth - 1 = inner.depth + depth by omega]
    exact fun p hp => hparts hp
  induction C with
  | hole => simpa [Context.depth, Context.fill] using h
  | list before inner after hform ih => exact hsequence inner before after rfl rfl hform ih
  | tuple before inner after hform ih => exact hsequence inner before after rfl rfl hform ih
  | object before key inner after hkey ih =>
    have hentry : isNodeEntry key (inner.fill node) = true := by
      have hnull := (look_of_isContainer (inner.isContainer_fill hnode)).2.1
      cases key <;> simp_all [isNodeEntry]
    have hparts : List.Forall₂ (fun e e' : Value × Value => e.1 = e'.1 ∧
        AgreeTo (inner.depth + depth) e.2 e'.2 ∧ (isNodeEntry e.1 e.2 = false → e.2 = e'.2))
        (before ++ (key, inner.fill node) :: after) (before ++ (key, inner.fill node') :: after) :=
      forall₂_append_cons (fun e => ⟨rfl, .same _ _, fun _ => rfl⟩) before
        ⟨rfl, ih, fun hother => by simp [hentry] at hother⟩ after
    obtain ⟨-, hparts⟩ := List.forall₂_iff_zip.1 hparts
    refine .object (by simp) (fun p hp _ => ?_) fun p hp hother => (hparts hp).2.2 hother
    rw [Context.depth, show ((inner.depth + 1 : Nat) : Int) + depth - 1 = inner.depth + depth by
      omega]
    exact (hparts hp).2.1

/-- Putting a schema into itself over and over gives unrollings, if it is put below the root. -/
theorem Context.unrolls (C : Context) (hdepth : 0 < C.depth) {node : Value}
    (hnode : node.isContainer = true) : Unrolls fun n => C.fill^[n + 1] node := by
  have hcontainer (n : Nat) : (C.fill^[n] node).isContainer = true := by
    induction n with
    | zero => exact hnode
    | succ n ih =>
      rw [Function.iterate_succ_apply']
      exact C.isContainer_fill ih
  have hagree (n : Nat) : AgreeTo (n - 1) (C.fill^[n] node) (C.fill^[n + 1] node) := by
    induction n with
    | zero => exact .deeper (by decide) (hcontainer 0) (hcontainer 1)
    | succ n ih =>
      rw [Function.iterate_succ_apply', Function.iterate_succ_apply' C.fill (n + 1)]
      exact (ih.fill C (hcontainer _)).of_le (by omega)
  exact fun n => (hagree (n + 1)).of_le (by omega)

/-- **The depth limit is a horizon.** Schemas that agree down to the limit have the same answers
under it. So have all the unrollings of a schema without end that go as deep as the limit. -/
theorem answers_of_agreeTo (limit : Int) :
    (∀ schema schema', AgreeTo limit schema schema' → SameAnswers limit schema schema') ∧
    (∀ unrolled, Unrolls unrolled → ∀ n n' : Nat, limit ≤ n → limit ≤ n' →
      SameAnswers limit (unrolled n) (unrolled n')) := by
  refine ⟨fun schema schema' h => sameAnswers_of_agreeTo h, fun unrolled h n n' hn hn' => ?_⟩
  rcases Nat.le_total n n' with hle | hle
  · have hanswers := sameAnswers_of_unrolls h hn (n' - n)
    rwa [Nat.add_sub_cancel' hle] at hanswers
  · have hanswers := sameAnswers_of_unrolls h hn' (n - n')
    rw [Nat.add_sub_cancel' hle] at hanswers
    intro strict start v
    obtain ⟨hcheck, hlog, haudit⟩ := hanswers strict start v
    exact ⟨hcheck.symm, hlog.symm, haudit.symm⟩

/-- Under the limit of one level, what the elements of an array say is not looked at in an
alternative of a union, and chains of objects are told apart by their first link only. -/
theorem answers_of_unions_and_chains :
    (AgreeTo 1 (.list [.string "or", .string "string", .list [.object []]])
        (.list [.string "or", .string "string", .list [.list [.string "no tag", .null]]]) ∧
      SameAnswers 1 (.list [.string "or", .string "string", .list [.object []]])
        (.list [.string "or", .string "string", .list [.list [.string "no tag", .null]]])) ∧
    (Unrolls (fun n => (Context.object [(.string "value", .string "any")] (.string "next?") .hole []
        (by simp [strictKey])).fill^[n + 1] (.object [])) ∧
      (1 : Int) ≤ (1 : Nat) ∧ (1 : Int) ≤ (7 : Nat) ∧
      SameAnswers 1
        ((Context.object [(.string "value", .string "any")] (.string "next?") .hole []
          (by simp [strictKey])).fill^[1 + 1] (.object []))
        ((Context.object [(.string "value", .string "any")] (.string "next?") .hole []
          (by simp [strictKey])).fill^[7 + 1] (.object []))) := by
  have hdeeper : AgreeTo (-1) (.object []) (.list [.string "no tag", .null]) :=
    .deeper (by decide) rfl rfl
  have hagree : AgreeTo 1 (.list [.string "or", .string "string", .list [.object []]])
      (.list [.string "or", .string "string", .list [.list [.string "no tag", .null]]]) :=
    hdeeper.fill (.list [.string "or", .string "string"] (.list [] .hole [] (by decide)) []
      (by decide)) rfl
  have hunrolls := Context.unrolls (.object [(.string "value", .string "any")] (.string "next?")
    .hole [] (by simp [strictKey])) (by decide) (show (Value.object []).isContainer = true from rfl)
  exact ⟨⟨hagree, (answers_of_agreeTo 1).1 _ _ hagree⟩, hunrolls, by decide, by decide,
    (answers_of_agreeTo 1).2 _ hunrolls 1 7 (by decide) (by decide)⟩

end ShapeSchema.Schema
