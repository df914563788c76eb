import ShapeSchema.Proofs.Schema.Declarations
import ShapeSchema.Conformance.Answer

/-!
# What an audit finds

An audit asks whether there is room for a node, then about the node itself, and then audits the
children in order (`audit_eq`), which `childSteps` lists with the steps that lead to them. By
induction over the children it accepts exactly the schemas of the grammar that are no higher than
the room (`audit_eq_conforms_iff`), and whatever else it tells is the fault of a node
(`audit_blames`). `checkSchema_eq_nothing_iff` says both of the answer that a caller receives.
-/

namespace ShapeSchema

/-- The verdict as seen from the start of the given steps. -/
def Verdict.behind (steps : Location) (verdict : Verdict) : Verdict :=
  steps.foldr Verdict.under verdict

/-- A verdict conforms wherever it is seen from. -/
theorem Verdict.behind_eq_conforms_iff {steps : Location} {verdict : Verdict} :
    verdict.behind steps = .conforms ↔ verdict = .conforms := by
  induction steps with
  | nil => rfl
  | cons s steps ih =>
    rw [← ih]
    unfold behind
    rw [List.foldr_cons]
    cases List.foldr under verdict steps <;> simp [under]

namespace Schema

/-- The verdict on a node itself, whatever lies below it. -/
def nodeVerdict : Value → Verdict
  | .list _ => .conforms
  | .tuple _ => .conforms
  | .object entries => objectVerdict entries
  -- A scalar needs no room below it.
  | node => auditScalar node 0

/-- The children of a sequence in order, each with the steps that lead to it. -/
def sequenceSteps (items : List Value) : List (Location × Value) :=
  match form items with
  | .enumeration => []
  | .union => (items.drop 1).map fun node => ([], node)
  | .array => (arrayNodes items).zipIdx.map fun p => ([.index p.2], p.1)

/-- The children of an object in order, each with the steps that lead to it. -/
def objectSteps (entries : List (Value × Value)) : List (Location × Value) :=
  (entries.filter fun e => isNodeEntry e.1 e.2).map fun e => ([.key (fieldName e.1)], e.2)

/-- The children of a node in order, each with the steps that lead to it. -/
def childSteps : Value → List (Location × Value)
  | .list items => sequenceSteps items
  | .tuple items => sequenceSteps items
  | .object entries => objectSteps entries
  | _ => []

/-- The steps to the nodes of a sequence lead to its nodes. -/
theorem sequenceSteps_map_snd (items : List Value) :
    (sequenceSteps items).map Prod.snd = sequenceNodes items items := by
  unfold sequenceSteps sequenceNodes
  cases form items with
  | enumeration => rfl
  | union =>
    dsimp only
    rw [List.map_map]
    exact List.map_id _
  | array =>
    dsimp only
    rw [List.map_map, ← arrayNodes]
    exact List.zipIdx_map_fst 0 _

/-- The steps lead to the children. -/
theorem childSteps_map_snd (schema : Value) :
    (childSteps schema).map Prod.snd = children schema := by
  cases schema with
  | list items => exact sequenceSteps_map_snd items
  | tuple items => exact sequenceSteps_map_snd items
  | object entries =>
    rw [childSteps, objectSteps, children, objectNodes_eq_map, List.map_map]
    rfl
  | _ => rfl

/-! ## One node -/

/-- The audit of the child that some steps lead to. -/
def auditChild (room : Int) (p : Location × Value) : Verdict :=
  (audit p.2 (room - 1)).behind p.1

/-- From an element other than the first one on, the audit of the elements is that of the nodes
among them. Whether the last of them is a mark is the same for any element in front. -/
theorem auditElements_succ (room : Int) (first : Value) (index : Nat) (items : List Value) :
    auditElements room (index + 1) (audits items) =
      Verdict.forEach (auditChild room)
        (((if endsInMark (first :: items) then items.dropLast else items).zipIdx (index + 1)).map
          fun p => ([.index p.2], p.1)) := by
  induction items generalizing first index with
  | nil => rfl
  | cons node rest ih =>
    have hnext := ih node (index + 1)
    cases rest with
    | nil =>
      cases hmark : Repetition.ofValue? node with
      | some r => simp [audits, auditElements, endsInMark, hmark, Verdict.forEach]
      | none =>
        simp [audits, auditElements, endsInMark, hmark, Verdict.forEach, auditChild, Verdict.behind]
    | cons next rest =>
      have hmark : endsInMark (first :: node :: next :: rest) = endsInMark (node :: next :: rest) :=
        rfl
      rw [hmark, audits, auditElements, if_neg (by simp [audits]), hnext]
      cases endsInMark (node :: next :: rest) <;>
        simp [Verdict.forEach, auditChild, Verdict.behind]

/-- The audit of all elements is that of the nodes among them. -/
theorem auditElements_zero (room : Int) (items : List Value) :
    auditElements room 0 (audits items) =
      Verdict.forEach (auditChild room)
        ((arrayNodes items).zipIdx.map fun p => ([.index p.2], p.1)) := by
  cases items with
  | nil => rfl
  | cons node rest =>
    have hrest := auditElements_succ room node 0 rest
    rw [audits, auditElements, if_neg (by simp), hrest, arrayNodes]
    cases rest with
    | nil => simp [endsInMark, Verdict.forEach, auditChild, Verdict.behind]
    | cons next rest =>
      cases endsInMark (node :: next :: rest) <;>
        simp [Verdict.forEach, auditChild, Verdict.behind]

/-- The audit of a sequence is that of its nodes. -/
theorem auditSequence_eq (room : Int) (items : List Value) :
    auditSequence items (audits items) room =
      Verdict.forEach (auditChild room) (sequenceSteps items) := by
  unfold auditSequence sequenceSteps
  cases form items with
  | enumeration => rfl
  | union =>
    dsimp only
    rw [audits_eq_map, ← List.map_drop]
    induction items.drop 1 with
    | nil => rfl
    | cons node rest ih =>
      rw [List.map_cons, List.map_cons, Verdict.forEach, Verdict.forEach, ih]
      rfl
  | array => exact auditElements_zero room items

/-- The audit of an entry is that of its node, if it holds one. -/
theorem auditEntry_eq (room : Int) (key node : Value) :
    auditEntry room (key, node, audit node) =
      if isNodeEntry key node then auditChild room ([.key (fieldName key)], node)
      else .conforms := by
  cases key with
  | string s =>
    by_cases hstrict : s = strictKey
    · simp [auditEntry, isNodeEntry, hstrict]
    · by_cases hany : s = anyKey
      · -- What stands for uncovered keys may be absent, and then it is no node.
        subst hany
        have hname : fieldName (.string anyKey) = .string anyKey := by
          rw [fieldName, show optionalBase? anyKey = none by decide]
          rfl
        cases hnull : node.isNull <;>
          simp [auditEntry, isNodeEntry, hstrict, hnull, hname, auditChild, Verdict.behind]
      · simp [auditEntry, isNodeEntry, hstrict, hany, auditChild, Verdict.behind]
  | _ => rfl

/-- The audit of the entries of an object is that of its nodes. -/
theorem auditEntries_eq (room : Int) (entries : List (Value × Value)) :
    Verdict.forEach (auditEntry room) (entryAudits entries) =
      Verdict.forEach (auditChild room) (objectSteps entries) := by
  unfold objectSteps
  induction entries with
  | nil => rfl
  | cons e rest ih =>
    rw [entryAudits, Verdict.forEach, ih, auditEntry_eq, List.filter_cons]
    cases isNodeEntry e.1 e.2 <;> rfl

/-- An audit asks whether there is room, then about the node itself, and then about its children
in order. -/
theorem audit_eq (schema : Value) (room : Int) :
    audit schema room =
      if room < 0 then .problem .tooDeep
      else (nodeVerdict schema).andThen fun _ =>
        Verdict.forEach (auditChild room) (childSteps schema) := by
  cases schema with
  | list items => rw [audit, auditSequence_eq]; rfl
  | tuple items => rw [audit, auditSequence_eq]; rfl
  | object entries => rw [audit, auditObject, auditEntries_eq]; rfl
  | string s =>
    have hscalar : (auditScalar (.string s) room).andThen (fun _ => .conforms) =
        auditScalar (.string s) room := by
      cases auditScalar (.string s) room <;> rfl
    rw [audit, ← hscalar]
    · rfl
    all_goals simp
  | _ => rfl

/-- The verdict on a node itself conforms exactly when the node is sound. -/
theorem nodeVerdict_eq_conforms_iff (schema : Value) :
    nodeVerdict schema = .conforms ↔ SoundNode schema := by
  cases schema with
  | list items => exact ⟨fun _ => .sequence rfl, fun _ => rfl⟩
  | tuple items => exact ⟨fun _ => .sequence rfl, fun _ => rfl⟩
  | object entries => exact objectVerdict_eq_conforms_iff
  | string s =>
    rw [soundNode_string_iff, nodeVerdict, auditScalar]
    · cases Tag.ofText? s <;> simp [Verdict.problem]
    all_goals simp
  | _ => exact ⟨by simp [nodeVerdict, auditScalar, Verdict.problem], fun h => by
      simpa using h.scalar rfl rfl⟩

/-- The verdict on a node itself is the fault of the node. -/
theorem nodeVerdict_blames {schema : Value} (room : Int) (h : nodeVerdict schema ≠ .conforms) :
    Blames schema room (nodeVerdict schema) := by
  have hsound : ¬SoundNode schema := fun hsound => h ((nodeVerdict_eq_conforms_iff schema).2 hsound)
  cases schema with
  | list items => exact absurd rfl h
  | tuple items => exact absurd rfl h
  | object entries => exact objectVerdict_blames room h
  | string s =>
    have hverdict : nodeVerdict (.string s) = .problem (.invalidNode s) := by
      cases htag : Tag.ofText? s with
      | some t => simp [nodeVerdict, auditScalar, htag] at h
      | none => simp [nodeVerdict, auditScalar, htag, Value.render, Value.display]
    rw [hverdict]
    exact .unsound rfl (.root _) hsound
  | _ => exact .unsound rfl (.root _) hsound

/-! ## The whole schema -/

/-- An audit conforms exactly when there is room, the node is sound, and the audits of its children
conform with one level less of room. -/
theorem audit_eq_conforms_iff_children (schema : Value) (room : Int) :
    audit schema room = .conforms ↔
      0 ≤ room ∧ SoundNode schema ∧
        ∀ child ∈ children schema, audit child (room - 1) = .conforms := by
  have hchildren : Verdict.forEach (auditChild room) (childSteps schema) = .conforms ↔
      ∀ child ∈ children schema, audit child (room - 1) = .conforms := by
    rw [Verdict.forEach_eq_conforms_iff, ← childSteps_map_snd]
    simp only [auditChild, Verdict.behind_eq_conforms_iff, List.forall_mem_map]
  rw [audit_eq]
  split
  · have hroom : ¬0 ≤ room := by omega
    simp [hroom, Verdict.problem]
  · have hroom : 0 ≤ room := by omega
    rw [Verdict.andThen_eq_conforms_iff, nodeVerdict_eq_conforms_iff, hchildren]
    simp only [hroom, true_and]

/-- An audit conforms exactly for the schemas that are no higher than the room. -/
theorem audit_eq_conforms_iff (schema : Value) (room : Int) :
    audit schema room = .conforms ↔ WellFormed schema ∧ (height schema : Int) ≤ room := by
  induction schema using induct_children generalizing room with
  | step schema ih =>
    rw [audit_eq_conforms_iff_children, wellFormed_iff, height_le_iff]
    constructor
    · rintro ⟨hroom, hsound, hchildren⟩
      exact ⟨⟨hsound, fun child h => ((ih child h _).1 (hchildren child h)).1⟩, hroom,
        fun child h => ((ih child h _).1 (hchildren child h)).2⟩
    · rintro ⟨⟨hsound, hformed⟩, hroom, hheight⟩
      exact ⟨hroom, hsound, fun child h => (ih child h _).2 ⟨hformed child h, hheight child h⟩⟩

/-- A node is to blame wherever the verdict is seen from. -/
theorem Blames.behind {schema : Value} {room : Int} {verdict : Verdict} (steps : Location)
    (h : Blames schema room verdict) : Blames schema room (verdict.behind steps) := by
  induction steps with
  | nil => exact h
  | cons s steps ih => exact ih.under s

/-- What an audit finds is the fault of a node. -/
theorem audit_blames {schema : Value} {room : Int} (h : audit schema room ≠ .conforms) :
    Blames schema room (audit schema room) := by
  induction schema using induct_children generalizing room with
  | step schema ih =>
    rw [audit_eq] at h ⊢
    split
    · exact .depth rfl (.root schema) (by omega)
    · rename_i hroom
      rw [if_neg hroom] at h
      cases hverdict : nodeVerdict schema with
      | conforms =>
        -- The audit ends as that of the first child in which something is wrong.
        rw [hverdict] at h
        obtain ⟨p, hp, hfirst⟩ := Verdict.forEach_mem h
        have hmem : p.2 ∈ children schema := by
          rw [← childSteps_map_snd]
          exact List.mem_map_of_mem hp
        have hchild : audit p.2 (room - 1) ≠ .conforms := by
          intro hconforms
          exact h (hfirst ▸ Verdict.behind_eq_conforms_iff.2 hconforms)
        show Blames schema room (Verdict.forEach (auditChild room) (childSteps schema))
        rw [← hfirst]
        exact ((ih p.2 hmem hchild).parent hmem).behind p.1
      | _ =>
        have hunsound : nodeVerdict schema ≠ .conforms := by simp [hverdict]
        have hblames := nodeVerdict_blames room hunsound
        rw [hverdict] at hblames
        exact hblames

/-- **An audit accepts exactly the schemas that are no higher than the limit.** Where all keys are
texts, what it reports otherwise is that the schema goes too deep or that it is no schema, and
either is so. -/
theorem checkSchema_eq_nothing_iff (schema : Value) (start : String) (limit : Int) :
    (checkSchema schema start limit = .nothing ↔
      WellFormed schema ∧ (height schema : Int) ≤ limit) ∧
    (TextKeyed schema → checkSchema schema start limit ≠ .nothing →
      ((checkSchema schema start limit).HasCode .maxDepthExceeded ∧ limit < height schema) ∨
      ((checkSchema schema start limit).HasCode .invalidSchema ∧ ¬WellFormed schema)) := by
  refine ⟨?_, fun htext h => ?_⟩
  · rw [checkSchema, Verdict.answer_eq_nothing_iff, audit_eq_conforms_iff]
  · rw [checkSchema, ne_eq, Verdict.answer_eq_nothing_iff] at h
    obtain ⟨v, hv, hcause⟩ := (audit_blames h).of_textKeyed htext
    rw [checkSchema, Verdict.answer_hasCode_iff, Verdict.answer_hasCode_iff]
    rcases hcause with ⟨hcode, hheight⟩ | ⟨hcode, hformed⟩
    · exact .inl ⟨⟨v, hv, hcode⟩, hheight⟩
    · exact .inr ⟨⟨v, hv, hcode⟩, hformed⟩

/-- A schema of two levels is one level too deep for an audit with room for one. -/
theorem checkSchema_array_of_arrays :
    TextKeyed (.list [.list [.string "any"]]) ∧
      checkSchema (.list [.list [.string "any"]]) "$" 1 ≠ .nothing ∧
      (checkSchema (.list [.list [.string "any"]]) "$" 1).HasCode .maxDepthExceeded ∧
      (1 : Int) < height (.list [.list [.string "any"]]) := by
  have hschema : WellFormed (.list [.list [.string "any"]]) :=
    ((checkSchema_eq_nothing_iff (.list [.list [.string "any"]]) "$" 2).1.1 rfl).1
  have hlimit : checkSchema (.list [.list [.string "any"]]) "$" 1 ≠ .nothing := nofun
  refine ⟨hschema.textKeyed, hlimit, ?_⟩
  rcases (checkSchema_eq_nothing_iff _ _ _).2 hschema.textKeyed hlimit with h | ⟨-, hformed⟩
  · exact h
  · exact absurd hschema hformed

end Schema

end ShapeSchema
