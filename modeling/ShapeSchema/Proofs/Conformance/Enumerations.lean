import ShapeSchema.Proofs.Conformance.Forms
import ShapeSchema.Proofs.Schema.Correspondence
import ShapeSchema.Proofs.Value.Rendering
import ShapeSchema.Value.Facing

/-!
# What enumerations take

An enumeration takes the values that are the same as one of its members
(`check_enumeration_eq_nothing_iff`), so that the laws of this equality are laws of checks. There
are three of them.

The equality asks for one kind on the outside of a value and nowhere else: among the parts that face
each other in a value and in the member that it is the same as, one may be a truth value and the
other the number equal to it (`facing_of_check`). It is a partial equivalence, so that members which
are the same can stand for each other (`equivalence_of_same`). And where one of two numbers is
whole, they are the same exactly if they are rendered alike, so that no whole number is reported as
missing from an enumeration of numbers that shows it (`rendering_of_same`).
-/

namespace ShapeSchema

namespace Value

variable {v w x y : Value}

/-! ## Parts that face each other -/

/-- Elements of alike sequences at one index are alike. -/
theorem alike_of_items? {items others : List Value} {i : Nat} (h : v.alike w = true)
    (hv : v.items? = some items) (hw : w.items? = some others) (hx : items[i]? = some x)
    (hy : others[i]? = some y) : x.alike y = true := by
  have hall : alikeAll items others = true := by
    cases v <;> cases w <;> simp_all [items?, alike]
  obtain ⟨-, h⟩ := List.forall₂_iff_get.1 (alikeAll_iff.1 hall)
  obtain ⟨hi, rfl⟩ := List.getElem?_eq_some_iff.1 hx
  obtain ⟨hi', rfl⟩ := List.getElem?_eq_some_iff.1 hy
  exact h i hi hi'

/-- Items of alike objects under alike keys are alike. -/
theorem alike_of_get? {entries others : List (Value × Value)} {key : Value}
    (h : (Value.object entries).alike (.object others) = true) (mem : (key, x) ∈ entries)
    (hget : Entries.get? others key = some y) : x.alike y = true := by
  rw [alike, alikeEntries_eq_all, Bool.and_eq_true] at h
  have hentry := List.all_eq_true.1 h.2 _ mem
  obtain ⟨o, ho, rfl⟩ := Option.map_eq_some_iff.1 hget
  simpa [ho] using hentry

/-- Parts of alike values that face each other are alike. -/
theorem Faces.alike (hfaces : Faces v w x y) (h : v.alike w = true) : x.alike y = true := by
  induction hfaces with
  | here => exact h
  | element hv hw hitem hother _ ih => exact ih (alike_of_items? h hv hw hitem hother)
  | item mem hget _ ih => exact ih (alike_of_get? h mem hget)

end Value

namespace Schema

variable {strict : Bool} {schema schema' v : Value} {members members' : List Value}
  {start : String} {limit : Int}

/-! ## The answer to an enumeration -/

/-- A value held against an enumeration: there is no room, or the value is the same as a member, or
it is reported as the same as none. -/
theorem check_enumeration (hitems : schema.items? = some (.string "enum" :: members)) :
    check strict schema start limit v =
      if limit < 0 then Run.tooDeep.verdict.answer start limit
      else if members.any fun member => v.same member then .nothing
      else .report (Violation.report start limit
        ⟨[], .enumMismatch (enumerationLabel members) v.render⟩) := by
  rw [check, run_of_items? strict limit v hitems, Checker.sequence_enumeration, Checker.enumeration]
  split
  · rfl
  · split <;> rfl

/-- There is nothing to say of the values that are the same as a member, if there is room. -/
theorem check_enumeration_eq_nothing_iff
    (hitems : schema.items? = some (.string "enum" :: members)) :
    check strict schema start limit v = .nothing ↔
      0 ≤ limit ∧ ∃ member ∈ members, v.same member = true := by
  rw [check_enumeration hitems, ← List.any_eq_true]
  split
  · simp [Run.tooDeep, Verdict.answer, Verdict.problem]
    omega
  · split <;> simp_all

/-- A mismatch is reported of the values that are the same as no member, and it shows the members
and the value. -/
theorem check_enumeration_mismatch {r : Report}
    (hitems : schema.items? = some (.string "enum" :: members))
    (h : check strict schema start limit v = .report r)
    (hcode : r.code = .string ReasonCode.enumMismatch.text) :
    r.reason = "'" ++ start ++ "': " ++ Problem.mismatchText
        ("enum(" ++ ", ".intercalate (members.map Value.render) ++ ")") v.render ∧
      ∀ member ∈ members, v.same member = false := by
  rw [check_enumeration hitems] at h
  split at h
  · obtain rfl := Answer.report.inj h
    simp [Violation.report, Problem.code, ReasonCode.text] at hcode
  · split at h
    · simp at h
    · rename_i hnone
      obtain rfl := Answer.report.inj h
      refine ⟨rfl, fun member hmem => Bool.eq_false_iff.2 fun hsame => hnone ?_⟩
      exact List.any_eq_true.2 ⟨member, hmem, hsame⟩

/-! ## Kinds -/

/-- **What an enumeration asks of kinds.** A value that an enumeration takes is of one kind with a
member of it, and what faces each other in the two is alike. Within containers this leaves room for
a truth value that faces the number equal to it, and for nothing else. -/
theorem facing_of_check (hitems : schema.items? = some (.string "enum" :: members))
    (h : check strict schema start limit v = .nothing) :
    ∃ member ∈ members, v.kind = member.kind ∧ ∀ x y, Value.Faces v member x y →
      x.alike y = true ∧ (x.kind = y.kind ∨ (x.kind = .boolean ∧ y.kind = .number) ∨
        (x.kind = .number ∧ y.kind = .boolean)) := by
  obtain ⟨-, member, hmem, hsame⟩ := (check_enumeration_eq_nothing_iff hitems).1 h
  obtain ⟨hkind, -, halike⟩ := Value.same_iff.1 hsame
  refine ⟨member, hmem, hkind, fun x y hfaces => ?_⟩
  have hparts := hfaces.alike halike
  exact ⟨hparts, Value.kind_of_alike hparts⟩

/-- The numbers in a member are taken for the truth values that face them. -/
theorem facing_of_check_list :
    check true (.list [.string "enum", .list [.integer 1]]) "$" 0 (.list [.boolean true]) =
        .nothing ∧
      ∃ member ∈ [Value.list [.integer 1]], (Value.list [.boolean true]).kind = member.kind ∧
        ∀ x y, Value.Faces (.list [.boolean true]) member x y →
          x.alike y = true ∧ (x.kind = y.kind ∨ (x.kind = .boolean ∧ y.kind = .number) ∨
            (x.kind = .number ∧ y.kind = .boolean)) := by
  have hcheck : check true (.list [.string "enum", .list [.integer 1]]) "$" 0
      (.list [.boolean true]) = .nothing := rfl
  exact ⟨hcheck, facing_of_check rfl hcheck⟩

/-- In a list a truth value is accepted in place of a number, whichever member is looked at. -/
theorem check_boolean_in_place_of_number :
    check true (.list [.string "enum", .list [.integer 1]]) "" 200 (.list [.boolean true]) =
        .nothing ∧
      ∀ member ∈ [Value.list [.integer 1]], ∃ x y,
        Value.Faces (.list [.boolean true]) member x y ∧ x.kind ≠ y.kind := by
  refine ⟨rfl, fun member hmem => ?_⟩
  obtain rfl := List.mem_singleton.1 hmem
  have hfaces : Value.Faces (.list [.boolean true]) (.list [.integer 1]) (.boolean true)
      (.integer 1) := .element (i := 0) rfl rfl rfl rfl (.here _ _)
  exact ⟨_, _, hfaces, by decide⟩

/-! ## Equality -/

/-- A value that is the same as a member is the same as whatever member is the same as that one. -/
theorem exists_same_of_forall₂ (hv : v.Distinct)
    (hsame : List.Forall₂ (fun m m' => m.same m' = true) members members')
    (h : ∃ member ∈ members, v.same member = true) :
    ∃ member ∈ members', v.same member = true := by
  obtain ⟨member, hmem, hmember⟩ := h
  obtain ⟨member', hmem', hsame'⟩ := exists_mem_of_forall₂ hsame hmem
  exact ⟨member', hmem', Value.same_trans hv hmember hsame'⟩

/-- **The equality of enumerations is a partial equivalence.** It is symmetric and transitive, and a
value is the same as itself unless it is not a number. So enumerations whose members are the same
one by one take the same values. Of the values it is asked that no two keys of an object and no two
elements of a set are alike, which is how objects and sets are built. -/
theorem equivalence_of_same :
    (∀ v w : Value, v.Distinct → v.same w = true → w.same v = true) ∧
    (∀ v w u : Value, v.Distinct → v.same w = true → w.same u = true → v.same u = true) ∧
    (∀ v : Value, v.Distinct → v.isNaN = false → v.same v = true) ∧
    (∀ (strict : Bool) (schema schema' : Value) (members members' : List Value) (start : String)
      (limit : Int) (v : Value), schema.items? = some (.string "enum" :: members) →
      schema'.items? = some (.string "enum" :: members') →
      List.Forall₂ (fun m m' => m.same m' = true) members members' →
      (∀ member ∈ members, member.Distinct) → v.Distinct →
      (check strict schema start limit v = .nothing ↔
        check strict schema' start limit v = .nothing)) := by
  refine ⟨fun v w hv => Value.same_symm hv, fun v w u hv => Value.same_trans hv,
    fun v hv => Value.same_self hv, ?_⟩
  intro strict schema schema' members members' start limit v hitems hitems' hsame hmembers hv
  have hsame' : List.Forall₂ (fun m' m => m'.same m = true) members' members := by
    obtain ⟨hlength, hall⟩ := List.forall₂_iff_zip.1 hsame.flip
    refine List.forall₂_iff_zip.2 ⟨hlength, fun {m' m} hp => ?_⟩
    exact Value.same_symm (hmembers m (List.of_mem_zip hp).2) (hall hp)
  rw [check_enumeration_eq_nothing_iff hitems, check_enumeration_eq_nothing_iff hitems']
  exact and_congr_right fun _ =>
    ⟨exists_same_of_forall₂ hv hsame, exists_same_of_forall₂ hv hsame'⟩

/-- Objects that differ in the order of their keys, and in that a truth value stands for a number,
are the same. -/
theorem equivalence_of_same_objects :
    (Value.object [(.integer 1, .null), (.string "a", .null)]).same
        (.object [(.string "a", .null), (.boolean true, .null)]) = true ∧
      (Value.object [(.string "a", .null), (.boolean true, .null)]).same
        (.object [(.integer 1, .null), (.string "a", .null)]) = true ∧
      (Value.object [(.string "a", .null), (.boolean true, .null)]).same
        (.object [(.boolean true, .null), (.string "a", .null)]) = true ∧
      (Value.object [(.integer 1, .null), (.string "a", .null)]).same
        (.object [(.boolean true, .null), (.string "a", .null)]) = true ∧
      (Value.object [(.integer 1, .null), (.string "a", .null)]).same
        (.object [(.integer 1, .null), (.string "a", .null)]) = true ∧
      (check true (.list [.string "enum", .object [(.integer 1, .null), (.string "a", .null)]])
          "$" 0 (.object [(.boolean true, .null), (.string "a", .null)]) = .nothing ↔
        check true (.list [.string "enum", .object [(.string "a", .null), (.boolean true, .null)]])
          "$" 0 (.object [(.boolean true, .null), (.string "a", .null)]) = .nothing) := by
  have hone : (Value.integer 1).Distinct := .scalar rfl rfl (by decide)
  have htrue : (Value.boolean true).Distinct := .scalar rfl rfl (by decide)
  have hname : (Value.string "a").Distinct := .scalar rfl rfl (by decide)
  have hnull : Value.null.Distinct := .scalar rfl rfl (by decide)
  have hv : (Value.object [(.integer 1, .null), (.string "a", .null)]).Distinct :=
    .object (by simp [Value.alike, Value.quantity?]) (by simp [hone, hname]) (by simp [hnull])
  have hu : (Value.object [(.boolean true, .null), (.string "a", .null)]).Distinct :=
    .object (by simp [Value.alike, Value.quantity?]) (by simp [htrue, hname]) (by simp [hnull])
  have hvw : (Value.object [(.integer 1, .null), (.string "a", .null)]).same
      (.object [(.string "a", .null), (.boolean true, .null)]) = true := by decide
  have hwu : (Value.object [(.string "a", .null), (.boolean true, .null)]).same
      (.object [(.boolean true, .null), (.string "a", .null)]) = true := by decide
  obtain ⟨hsymm, htrans, hself, hcheck⟩ := equivalence_of_same
  refine ⟨hvw, hsymm _ _ hv hvw, hwu, htrans _ _ _ hv hvw hwu, hself _ hv rfl, ?_⟩
  exact hcheck _ _ _ _ _ _ _ _ rfl rfl (.cons hvw .nil) (by simpa using hv) hu

/-! ## Rendering -/

/-- **Rendering agrees with the equality of enumerations.** Values without parts are rendered alike
if they are the same, and a number that is rendered like a whole number is the same as it. So if a
whole number is reported as no member of an enumeration of numbers, what is shown of it is not shown
of any member. -/
theorem rendering_of_same :
    (∀ v w : Value, v.kind.text ∈ [Kind.null, .boolean, .number, .string].map Kind.text →
      v.same w = true → v.render = w.render) ∧
    (∀ v w : Value, v.isInteger = true → w.kind = .number → v.render = w.render →
      v.same w = true) ∧
    (∀ (strict : Bool) (schema : Value) (members : List Value) (start : String) (limit : Int)
      (v : Value) (r : Report), schema.items? = some (.string "enum" :: members) →
      v.isInteger = true → (∀ member ∈ members, member.kind = .number) →
      check strict schema start limit v = .report r →
      r.code = .string ReasonCode.enumMismatch.text →
      r.reason = "'" ++ start ++ "': " ++ Problem.mismatchText
          ("enum(" ++ ", ".intercalate (members.map Value.render) ++ ")") v.render ∧
        v.render ∉ members.map Value.render) := by
  refine ⟨fun v w => Value.render_eq_of_same, fun v w => Value.same_of_render_eq, ?_⟩
  intro strict schema members start limit v r hitems hv hmembers h hcode
  obtain ⟨hreason, hother⟩ := check_enumeration_mismatch hitems h hcode
  refine ⟨hreason, fun hshown => ?_⟩
  obtain ⟨member, hmem, hrender⟩ := List.mem_map.1 hshown
  have hsame := Value.same_of_render_eq hv (hmembers member hmem) hrender.symm
  rw [hother member hmem] at hsame
  exact absurd hsame (by decide)

/-- The double one is rendered like the integer, and as no member of an enumeration of others. -/
theorem rendering_of_one :
    (Value.integer 1).render =
        (Value.double (.finite false 0x10000000000000 (-52) (by decide))).render ∧
      (Value.integer 1).same (.double (.finite false 0x10000000000000 (-52) (by decide))) = true ∧
      check true (.list [.string "enum", .integer 2, .integer 10]) "$" 0
          (.double (.finite false 0x10000000000000 (-52) (by decide))) =
        .report ⟨"'$': expected type 'enum(2, 10)', got '1'", .string "enum_mismatch",
          .string "$", []⟩ ∧
      (Value.double (.finite false 0x10000000000000 (-52) (by decide))).render ∉
        [Value.integer 2, .integer 10].map Value.render := by
  obtain ⟨hrender, hsame, hcheck⟩ := rendering_of_same
  have hone : (Value.integer 1).render =
      (Value.double (.finite false 0x10000000000000 (-52) (by decide))).render :=
    hrender _ _ (by decide) (by decide)
  have hreport : check true (.list [.string "enum", .integer 2, .integer 10]) "$" 0
      (.double (.finite false 0x10000000000000 (-52) (by decide))) =
        .report ⟨"'$': expected type 'enum(2, 10)', got '1'", .string "enum_mismatch",
          .string "$", []⟩ := rfl
  refine ⟨hone, hsame _ _ rfl rfl hone, hreport, ?_⟩
  exact (hcheck _ _ _ _ _ _ _ rfl rfl (by decide) hreport rfl).2

end Schema

end ShapeSchema
