import ShapeSchema.Proofs.Conformance.DepthLimit
import ShapeSchema.Proofs.Conformance.SameRun
import ShapeSchema.Proofs.Schema.Rewriting

/-!
# Nested unions

A union among the alternatives of a union says the same as its own alternatives in its place, down
to the wording of reports (`check_flatten`). Its label is what their labels are put together to
(`label_flatten`), and where it rejects a value the next alternative is tried, which is what happens
after the last of its alternatives too (`Verdict.orElse_assoc`).

The alternatives come up by one level, so that more room is left for them: a check that ends for
lack of room may end in another way then, and no other check may (`Verdict.Outlasts`).
-/

namespace ShapeSchema

/-! ## One verdict instead of another -/

namespace Verdict

variable {verdict verdict' verdict'' other other' : Verdict}

/-- One verdict, and another one if it rejects the value. -/
def orElse (verdict other : Verdict) : Verdict :=
  match verdict with
  | .violates v => if v.problem = .tooDeep then verdict else other
  | _ => verdict

/-- After a rejection the other verdict counts. -/
theorem orElse_of_rejects (h : verdict.Rejects) : verdict.orElse other = other := by
  obtain ⟨v, rfl, hproblem⟩ := h
  exact if_neg hproblem

/-- Any verdict that is no rejection counts. -/
theorem orElse_of_not_rejects (h : ¬verdict.Rejects) : verdict.orElse other = verdict := by
  cases verdict with
  | violates v => exact if_pos (not_not.1 fun hproblem => h ⟨v, rfl, hproblem⟩)
  | _ => rfl

/-- It does not matter which two of three verdicts are taken together. -/
theorem orElse_assoc : (verdict.orElse verdict').orElse verdict'' =
    verdict.orElse (verdict'.orElse verdict'') := by
  by_cases h : verdict.Rejects
  · rw [orElse_of_rejects h, orElse_of_rejects h]
  · rw [orElse_of_not_rejects h, orElse_of_not_rejects h, orElse_of_not_rejects h]

/-- Where some verdicts end in a rejection, another one may stand in its place. -/
theorem foldr_orElse (h : verdict.Rejects) (verdicts : List Verdict) :
    (verdicts.foldr orElse verdict).orElse other = verdicts.foldr orElse other := by
  induction verdicts with
  | nil => exact orElse_of_rejects h
  | cons first rest ih => rw [List.foldr_cons, orElse_assoc, ih, List.foldr_cons]

/-- A verdict for lack of room is no rejection. -/
theorem TooDeep.not_rejects (h : verdict.TooDeep) : ¬verdict.Rejects := by
  obtain ⟨v, rfl, hproblem⟩ := h
  rintro ⟨w, hw, hother⟩
  obtain rfl := Verdict.violates.inj hw
  exact hother hproblem

namespace Outlasts

/-- The relation is kept by one verdict instead of another. What comes after the first matters only
where it rejects the value. -/
theorem orElse (h : Outlasts verdict verdict')
    (hother : verdict.Rejects → Outlasts other other') :
    Outlasts (verdict.orElse other) (verdict'.orElse other') := by
  rcases h with hdeep | rfl
  · refine .inl ?_
    rwa [orElse_of_not_rejects hdeep.not_rejects]
  · by_cases hrejects : verdict'.Rejects
    · rw [orElse_of_rejects hrejects, orElse_of_rejects hrejects]
      exact hother hrejects
    · rw [orElse_of_not_rejects hrejects, orElse_of_not_rejects hrejects]
      exact refl verdict'

/-- The relation passes from some verdicts to the first of them that is no rejection. -/
theorem foldr {verdicts verdicts' : List Verdict} (h : List.Forall₂ Outlasts verdicts verdicts')
    (hother : Outlasts other other') :
    Outlasts (verdicts.foldr Verdict.orElse other) (verdicts'.foldr Verdict.orElse other') := by
  induction h with
  | nil => exact hother
  | cons hfirst _ ih => exact hfirst.orElse fun _ => ih

end Outlasts

end Verdict

/-- The verdict of one run after another. -/
theorem Run.andThen_verdict (r : Run) (next : Unit → Run) :
    (r.andThen next).verdict = r.verdict.andThen fun _ => (next ()).verdict := by
  unfold Run.andThen Verdict.andThen
  cases hr : r.verdict <;> first | rfl | exact hr

/-- The verdict of one run instead of another. -/
theorem Run.orElse_verdict (r : Run) (alternative : String) (next : Unit → Run) :
    (r.orElse alternative next).verdict = r.verdict.orElse (next ()).verdict := by
  unfold Run.orElse Verdict.orElse
  cases hr : r.verdict with
  | violates v =>
    dsimp only
    split
    · exact hr
    · rfl
  | _ => exact hr

/-- The verdict of the first run outlasts that of the second, whatever the two have noted. -/
def Run.VerdictOutlasts (r r' : Run) : Prop := r.verdict.Outlasts r'.verdict

/-- Where a run outlasts another one its verdict does. -/
theorem Run.Outlasts.verdict {r r' : Run} (h : r.Outlasts r') : r.VerdictOutlasts r' := by
  rcases h with hdeep | ⟨rfl, -⟩
  · exact .inl hdeep
  · exact .refl _

/-- The relation passes from the parts of nodes to the nodes. -/
theorem Run.VerdictOutlasts.simulation : Run.Simulation VerdictOutlasts where
  silent _ := .refl _
  under s _ _ h := Verdict.Outlasts.under s h
  andThen h hnext := by
    rw [VerdictOutlasts, Run.andThen_verdict, Run.andThen_verdict]
    exact h.andThen hnext
  orElse h hnext := by
    rw [VerdictOutlasts, Run.orElse_verdict, Run.orElse_verdict]
    exact h.orElse fun hrejects => (hnext hrejects).2

/-- The verdict of an attempt is that of the first alternative that does not reject the value. -/
theorem Checker.attempt_verdict {alternatives : List Node} (strict : Bool) (room : Int) (v : Value)
    (schemas : List Value) :
    (attempt alternatives room v (schemas.map (Schema.node strict))).verdict =
      (schemas.map fun a => (Schema.run strict a (room - 1) v).verdict).foldr Verdict.orElse
        (.problem (unionProblem alternatives v)) := by
  induction schemas with
  | nil => rfl
  | cons a rest ih =>
    rw [List.map_cons, attempt, Run.orElse_verdict, ih, List.map_cons, List.foldr_cons, Schema.node]

/-- The verdict of a union is that of the first alternative that does not reject the value, or else
it names the labels of all alternatives. -/
theorem Checker.union_verdict (strict : Bool) (room : Int) (v : Value) (schemas : List Value) :
    (union (schemas.map (Schema.node strict)) room v).verdict =
      (schemas.map fun a => (Schema.run strict a (room - 1) v).verdict).foldr Verdict.orElse
        (.problem (.unionMismatch (Schema.unionLabel (schemas.map Schema.label)) v.kind.text)) := by
  rw [union, attempt_verdict, unionProblem, List.map_map]
  rfl

namespace Schema

/-! ## Alternatives in the place of a union -/

/-- What may stand for an alternative is the alternative itself, or all alternatives of a union that
has some. -/
theorem spread_cases (alternative : Value) :
    (spread alternative = [alternative] ∧
      ∀ inner, alternative.items? = some (.string "or" :: inner) → inner = []) ∨
    ∃ first rest, alternative.items? = some (.string "or" :: first :: rest) ∧
      spread alternative = first :: rest := by
  cases hitems : alternative.items? with
  | none => exact .inl ⟨by rw [spread, hitems], nofun⟩
  | some items =>
    by_cases hunion : form items = .union ∧ 1 < items.length
    · obtain ⟨hform, hlength⟩ := hunion
      obtain ⟨inner, rfl⟩ := form_eq_union_iff.1 hform
      cases inner with
      | nil => exact absurd hlength (by decide)
      | cons first rest =>
        refine .inr ⟨first, rest, rfl, ?_⟩
        simp only [spread, hitems, if_pos (And.intro hform hlength), List.drop_succ_cons,
          List.drop_zero]
    · -- A union that is kept has nothing behind the word that tells the form.
      refine .inl ⟨by simp only [spread, hitems, if_neg hunion], fun inner hinner => ?_⟩
      obtain rfl := Option.some.inj hinner
      by_contra hne
      exact hunion ⟨rfl, by simpa [List.length_pos_iff] using hne⟩

/-- The labels of what stands for an alternative are put together to its label. -/
theorem unionLabel_map_spread (alternative : Value) :
    unionLabel ((spread alternative).map label) = label alternative := by
  rcases spread_cases alternative with ⟨hspread, -⟩ | ⟨first, rest, hitems, hspread⟩
  · rw [hspread]
    simp [unionLabel]
  · rw [hspread, label_of_items? hitems]
    rfl

/-- The label of a union of unions names the alternatives of all of them in order, if each of them
has some. -/
theorem unionLabel_flatten {parts : List (List String)} (h : ∀ labels ∈ parts, labels ≠ []) :
    unionLabel parts.flatten = unionLabel (parts.map unionLabel) := by
  induction parts with
  | nil => rfl
  | cons labels rest ih =>
    obtain ⟨hlabels, hrest⟩ := List.forall_mem_cons.1 h
    cases rest with
    | nil => simp [unionLabel]
    | cons others rest =>
      have hflatten : (others :: rest).flatten ≠ [] := by
        simp [(List.forall_mem_cons.1 hrest).1]
      calc unionLabel (labels :: others :: rest).flatten
        _ = unionLabel labels ++ " | " ++ unionLabel (others :: rest).flatten :=
          String.intercalate_append_of_ne_nil hlabels hflatten
        _ = unionLabel labels ++ " | " ++ unionLabel ((others :: rest).map unionLabel) := by
          rw [ih hrest]
        _ = unionLabel ((labels :: others :: rest).map unionLabel) :=
          (String.intercalate_cons_of_ne_nil (by simp)).symm

/-- With its alternatives spread a union has the same label. -/
theorem unionLabel_flatMap_spread (alternatives : List Value) :
    unionLabel ((alternatives.flatMap spread).map label) = unionLabel (alternatives.map label) := by
  have hparts : ∀ labels ∈ alternatives.map fun a => (spread a).map label, labels ≠ [] := by
    rw [List.forall_mem_map]
    intro a _
    rcases spread_cases a with ⟨hspread, -⟩ | ⟨first, rest, -, hspread⟩ <;> simp [hspread]
  rw [List.map_flatMap, List.flatMap_def, unionLabel_flatten hparts, List.map_map]
  congr 1
  exact List.map_congr_left fun a _ => unionLabel_map_spread a

/-! ## The flat schema -/

variable {schema : Value} {items : List Value}

/-- A flat schema looks like the schema. -/
theorem lookAlike_flatten (schema : Value) : LookAlike schema (flatten schema) := by
  refine .everywhere (fun node hnode => ?_) schema
  cases node <;> first | rfl | exact hnode

/-- Sequences of flat elements have the form of the sequence. -/
theorem form_map_flatten (items : List Value) : form (items.map flatten) = form items := by
  refine (form_congr ?_).symm
  rw [List.forall₂_map_right_iff, List.forall₂_same]
  exact fun part _ => lookAlike_flatten part

/-- What a schema is made into, form by form. -/
theorem flatten_cases (schema : Value) :
    (∃ members, schema.items? = some (.string "enum" :: members) ∧
      (flatten schema).items? = some (.string "enum" :: members)) ∨
    (∃ alternatives, schema.items? = some (.string "or" :: alternatives) ∧
      (flatten schema).items? =
        some (.string "or" :: (alternatives.map flatten).flatMap spread)) ∨
    (∃ items, schema.items? = some items ∧ form items = .array ∧
      (flatten schema).items? = some (items.map flatten)) ∨
    (∃ entries, schema = .object entries ∧
      flatten schema = .object (entries.map fun e => (e.1, itemEverywhere inlineUnions e))) ∨
    (schema.items? = none ∧ schema.entries? = none ∧ flatten schema = schema) := by
  rcases kinds schema with ⟨items, hitems⟩ | ⟨entries, rfl⟩ | ⟨hitems, hentries⟩
  · have hflat : (flatten schema).items? = some (spreadAlternatives
        (if form items = .enumeration then items else items.map flatten)) := by
      refine everywhere_items? spreadAlternatives (fun node items h => ?_) hitems
      rcases Value.items?_eq_some_iff.1 h with rfl | rfl <;> rfl
    cases hform : form items with
    | enumeration =>
      obtain ⟨members, rfl⟩ := form_eq_enumeration_iff.1 hform
      exact .inl ⟨members, hitems, hflat⟩
    | union =>
      obtain ⟨alternatives, rfl⟩ := form_eq_union_iff.1 hform
      exact .inr (.inl ⟨alternatives, hitems, hflat⟩)
    | array =>
      -- With its elements flat an array is still no union.
      rw [hform, if_neg nofun, spreadAlternatives, form_map_flatten, hform, if_neg nofun] at hflat
      exact .inr (.inr (.inl ⟨items, hitems, hform, hflat⟩))
  · exact .inr (.inr (.inr (.inl ⟨entries, rfl, everywhere_object entries⟩)))
  · exact .inr (.inr (.inr (.inr ⟨hitems, hentries, everywhere_scalar hitems hentries⟩)))

/-- A flat schema has the same label. -/
theorem label_flatten (schema : Value) : label (flatten schema) = label schema := by
  induction schema using induct_children with
  | step schema ih =>
    rcases flatten_cases schema with ⟨members, hitems, hflat⟩ | ⟨alternatives, hitems, hflat⟩ |
      ⟨items, hitems, hform, hflat⟩ | ⟨entries, rfl, hflat⟩ | ⟨-, -, hflat⟩
    · rw [label_of_items? hitems, label_of_items? hflat]
    · rw [children_of_items? hitems] at ih
      have hlabels : (alternatives.map flatten).map label = alternatives.map label := by
        rw [List.map_map]
        exact List.map_congr_left ih
      rw [label_of_items? hitems, label_of_items? hflat]
      change unionLabel _ = unionLabel _
      rw [List.drop_succ_cons, List.drop_zero, unionLabel_flatMap_spread, hlabels]
      rfl
    · rw [label_of_items? hitems, label_of_items? hflat, form_map_flatten, hform]
    · rw [hflat]
      rfl
    · rw [hflat]

/-- A union without alternatives has a label like any other, so that it cannot be left out. -/
example : label (flatten (.list [.string "or", .string "any", .list [.string "or"]])) = "any | " :=
  rfl

/-- A sequence that is no union has no alternatives. -/
theorem flat_of_form_ne_union (hitems : schema.items? = some items) (hform : form items ≠ .union) :
    Flat schema := by
  intro alternatives h
  obtain rfl := Option.some.inj (hitems.symm.trans h)
  exact absurd rfl hform

/-- What is neither list nor tuple has no alternatives. -/
theorem flat_of_items?_eq_none (hitems : schema.items? = none) : Flat schema := by
  intro alternatives h
  exact absurd (hitems.symm.trans h) nofun

/-- What stands for an alternative of a flat schema is flat, and no union with alternatives. -/
theorem flat_of_mem_spread {a b : Value} (h : EveryNode Flat a) (hb : b ∈ spread a) :
    EveryNode Flat b ∧ ∀ inner, b.items? = some (.string "or" :: inner) → inner = [] := by
  rcases spread_cases a with ⟨hspread, hnone⟩ | ⟨first, rest, hitems, hspread⟩
  · obtain rfl := List.mem_singleton.1 (hspread ▸ hb)
    exact ⟨h, hnone⟩
  · rw [hspread] at hb
    refine ⟨h.child ?_, h.root (first :: rest) hitems b hb⟩
    rw [children_of_items? hitems]
    exact hb

/-- No alternatives are left in a flat schema that might be spread. -/
theorem everyNode_flat_flatten (schema : Value) : EveryNode Flat (flatten schema) := by
  induction schema using induct_children with
  | step schema ih =>
    rcases flatten_cases schema with ⟨members, hitems, hflat⟩ | ⟨alternatives, hitems, hflat⟩ |
      ⟨items, hitems, hform, hflat⟩ | ⟨entries, rfl, hflat⟩ | ⟨hitems, hentries, hflat⟩
    · refine everyNode_of_children (flat_of_form_ne_union hflat nofun) fun child hchild => ?_
      rw [children_of_items? hflat] at hchild
      exact absurd hchild List.not_mem_nil
    · -- Below the union there are only parts of what its alternatives were made into.
      rw [children_of_items? hitems] at ih
      have hparts : ∀ b ∈ (alternatives.map flatten).flatMap spread,
          EveryNode Flat b ∧ ∀ inner, b.items? = some (.string "or" :: inner) → inner = [] := by
        intro b hb
        obtain ⟨flat, hmem, hb⟩ := List.mem_flatMap.1 hb
        obtain ⟨a, ha, rfl⟩ := List.mem_map.1 hmem
        exact flat_of_mem_spread (ih a ha) hb
      refine everyNode_of_children (fun others hothers b hb => ?_) fun child hchild => ?_
      · obtain ⟨-, rfl⟩ := List.cons.inj (Option.some.inj (hflat.symm.trans hothers))
        exact (hparts b hb).2
      · rw [children_of_items? hflat] at hchild
        exact (hparts child hchild).1
    · rw [children_of_items? hitems] at ih
      have hform' : form (items.map flatten) ≠ .union := by
        rw [form_map_flatten, hform]
        nofun
      refine everyNode_of_children (flat_of_form_ne_union hflat hform') fun child hchild => ?_
      rw [children_of_items? hflat, sequenceNodes_map_of_lookAlike lookAlike_flatten] at hchild
      obtain ⟨part, hpart, rfl⟩ := List.mem_map.1 hchild
      exact ih part hpart
    · rw [hflat]
      refine everyNode_of_children (flat_of_items?_eq_none rfl) fun child hchild => ?_
      obtain ⟨item, hitem, rfl⟩ := exists_of_mem_children_itemEverywhere hchild
      exact ih item hitem
    · rw [hflat]
      refine everyNode_of_children (flat_of_items?_eq_none hitems) fun child hchild => ?_
      rw [children_of_scalar hitems hentries] at hchild
      exact absurd hchild List.not_mem_nil

/-! ## Checks -/

/-- What stands for an alternative, with the verdict that it has one level further up, outlasts it
where it is tried. -/
theorem outlasts_spread (strict : Bool) (room : Int) (v alternative : Value)
    {other other' : Verdict} (h : other.Outlasts other') :
    ((run strict alternative room v).verdict.orElse other).Outlasts
      (((spread alternative).map fun a => (run strict a room v).verdict).foldr Verdict.orElse
        other') := by
  rcases spread_cases alternative with ⟨hspread, -⟩ | ⟨first, rest, hitems, hspread⟩
  · rw [hspread]
    exact (Verdict.Outlasts.refl _).orElse fun _ => h
  · rw [hspread, run_of_items? strict room v hitems, Checker.sequence_union]
    split
    · exact .inl ⟨_, rfl, rfl⟩
    · -- Behind its own alternatives the union rejects the value, and the others come next.
      have hrejects (expected : String) :
          (Verdict.problem (.unionMismatch expected v.kind.text)).Rejects := ⟨_, rfl, nofun⟩
      rw [Checker.union_verdict, Verdict.foldr_orElse (hrejects _)]
      refine Verdict.Outlasts.foldr ?_ h
      rw [List.forall₂_map_left_iff, List.forall₂_map_right_iff, List.forall₂_same]
      exact fun a _ => (run_outlasts strict a (by omega) v).verdict

/-- A union whose alternatives are spread outlasts the union. -/
theorem outlasts_flatMap_spread (strict : Bool) (room : Int) (v : Value)
    (alternatives : List Value) :
    (Checker.union (alternatives.map (node strict)) room v).verdict.Outlasts
      (Checker.union ((alternatives.flatMap spread).map (node strict)) room v).verdict := by
  rw [Checker.union_verdict, Checker.union_verdict, unionLabel_flatMap_spread]
  generalize Verdict.problem _ = last
  induction alternatives with
  | nil => exact .refl last
  | cons a rest ih =>
    rw [List.flatMap_cons, List.map_append, List.foldr_append]
    exact outlasts_spread strict (room - 1) v a ih

/-- A run of the flat schema has the same verdict, unless the run of the schema ends for lack of
room. -/
theorem run_flatten (strict : Bool) (schema : Value) (room : Int) (v : Value) :
    (run strict schema room v).verdict.Outlasts (run strict (flatten schema) room v).verdict := by
  have hR := Run.VerdictOutlasts.simulation
  induction schema using induct_children generalizing room v with
  | step schema ih =>
    have hrefl (part : Value) : Node.InStep Run.VerdictOutlasts room room (node strict part)
        (node strict part) := ⟨fun _ _ => rfl, rfl, rfl, fun _ => .refl _⟩
    have hchildren : ∀ child ∈ children schema, Node.InStep Run.VerdictOutlasts room room
        (node strict child) (node strict (flatten child)) := fun child hchild =>
      ⟨fun _ _ => (label_flatten child).symm, (lookAlike_flatten child).mark,
        (lookAlike_flatten child).absent, ih child hchild (room - 1)⟩
    rcases flatten_cases schema with ⟨members, hitems, hflat⟩ | ⟨alternatives, hitems, hflat⟩ |
      ⟨items, hitems, hform, hflat⟩ | ⟨entries, rfl, hflat⟩ | ⟨-, -, hflat⟩
    · rw [run_of_items? strict room v hitems, run_of_items? strict room v hflat]
      exact .refl _
    · rw [run_of_items? strict room v hitems, run_of_items? strict room v hflat]
      rw [children_of_items? hitems] at hchildren
      -- First the alternatives are made flat where they are, and then they are spread.
      have hunion : (Checker.union (alternatives.map (node strict)) room v).verdict.Outlasts
          (Checker.union ((alternatives.map flatten).map (node strict)) room v).verdict := by
        refine hR.union ?_
        rw [List.map_map, List.forall₂_map_left_iff, List.forall₂_map_right_iff, List.forall₂_same]
        exact hchildren
      split
      · exact .refl _
      · rw [Checker.sequence_union, Checker.sequence_union]
        exact hunion.trans (outlasts_flatMap_spread strict room v _)
    · rw [run_of_items? strict room v hitems, run_of_items? strict room v hflat]
      have hparts := forall₂_everywhere
        (R := fun part part' => Node.InStep Run.VerdictOutlasts room room (node strict part)
          (node strict part')) hrefl hitems (by rw [hform]; nofun) hchildren
      split
      · exact .refl _
      · refine hR.sequence (form_map_flatten items).symm (fun henum => ?_) fun _ => ?_
        · exact absurd (hform.symm.trans henum) nofun
        · rw [List.forall₂_map_left_iff, List.forall₂_map_right_iff]
          exact hparts
    · rw [hflat, run_object, run_object]
      have hparts := forall₂_itemEverywhere
        (R := fun part part' => Node.InStep Run.VerdictOutlasts room room (node strict part)
          (node strict part')) hrefl hchildren
      split
      · exact .refl _
      · exact hR.object_of_get? (Entries.forall₂_iff_zip.1 hparts).1
          (get?_strictKey_itemEverywhere entries).symm fun key =>
            Entries.get?_rel (hparts.imp fun _ _ hpart => ⟨hpart.1, fun _ => hpart.2⟩)
    · rw [hflat]
      exact .refl _

/-- **Nested unions are one union.** Putting the alternatives of nested unions in their place, at
all depths, leaves no union with alternatives among the alternatives of another, keeps the label,
and changes no answer of a check that does not end at the limit of depth. -/
theorem check_flatten (schema : Value) :
    EveryNode Flat (flatten schema) ∧ label (flatten schema) = label schema ∧
      ∀ (strict : Bool) (start : String) (limit : Int) (v : Value),
        ¬(check strict schema start limit v).HasCode .maxDepthExceeded →
          check strict (flatten schema) start limit v = check strict schema start limit v := by
  refine ⟨everyNode_flat_flatten schema, label_flatten schema, fun strict start limit v h => ?_⟩
  rw [check, Verdict.answer_hasCode_maxDepthExceeded_iff] at h
  rw [check, check, (run_flatten strict schema limit v).resolve_left h]

/-- A value that no alternative takes is told the labels of all of them, whether or not they are
nested. -/
theorem check_flatten_object :
    ¬(check true (.object [(.string "a", .list [.string "or", .list [.string "or", .string "string",
        .tuple [.string "or", .string "boolean"]], .string "number"])]) "$" 5
        (.object [(.string "a", .null)])).HasCode .maxDepthExceeded ∧
      check true (flatten (.object [(.string "a", .list [.string "or", .list [.string "or",
          .string "string", .tuple [.string "or", .string "boolean"]], .string "number"])])) "$" 5
          (.object [(.string "a", .null)]) =
        .report ⟨"'$.a': expected type 'string | boolean | number', got 'null'",
          .string "union_mismatch", .string "$.a", []⟩ := by
  have hreport : check true (.object [(.string "a", .list [.string "or", .list [.string "or",
      .string "string", .tuple [.string "or", .string "boolean"]], .string "number"])]) "$" 5
      (.object [(.string "a", .null)]) =
    .report ⟨"'$.a': expected type 'string | boolean | number', got 'null'",
      .string "union_mismatch", .string "$.a", []⟩ := rfl
  have hlimit : ¬(check true (.object [(.string "a", .list [.string "or", .list [.string "or",
      .string "string", .tuple [.string "or", .string "boolean"]], .string "number"])]) "$" 5
      (.object [(.string "a", .null)])).HasCode .maxDepthExceeded := by
    rw [hreport]
    rintro ⟨r, hr, hcode⟩
    obtain rfl := Answer.report.inj hr
    simp [ReasonCode.text] at hcode
  exact ⟨hlimit, ((check_flatten _).2.2 true "$" 5 _ hlimit).trans hreport⟩

end Schema

end ShapeSchema
