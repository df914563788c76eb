import Mathlib.Data.List.Perm.Basic
import Mathlib.Data.List.Zip
import ShapeSchema.Proofs.Schema.Audit
import ShapeSchema.Schema.Variation

/-!
# Schemas that correspond

Two schemas of one shape correspond part by part. Here it is said once what such a correspondence
carries over: from the elements of two sequences to their form and their nodes
(`sequenceSteps_rel`), and from the entries of two object schemas to what is looked up in them
(`governing?_rel`) and to the verdict on their declarations (`objectVerdict_congr`).

What may stand for a node in a sequence without changing the meaning of its neighbours is
`Schema.LookAlike`: whatever two containers hold, they look alike, and so do any two schemas. With
nodes in the hole that look alike a context looks alike too (`LookAlike.fill`), and every node of a
schema stands in the hole of some context (`NodeAt.exists_context`).
-/

namespace ShapeSchema

/-! ## Lists and options -/

/-- Among what corresponds to a list there is something that corresponds to each of its elements. -/
theorem exists_mem_of_forall₂ {α β : Type} {R : α → β → Prop} {as : List α} {bs : List β}
    (h : List.Forall₂ R as bs) {a : α} (ha : a ∈ as) : ∃ b ∈ bs, R a b := by
  induction h with
  | nil => simp at ha
  | cons hfirst _ ih =>
    rcases List.mem_cons.1 ha with rfl | ha
    · exact ⟨_, List.mem_cons_self, hfirst⟩
    · obtain ⟨b, hb, hab⟩ := ih ha
      exact ⟨b, List.mem_cons_of_mem _ hb, hab⟩

/-- What corresponds to two lists one behind the other can be cut where the second one begins. -/
theorem exists_append_of_forall₂ {α β : Type} {R : α → β → Prop} {as as' : List α} {bs : List β}
    (h : List.Forall₂ R (as ++ as') bs) :
    ∃ front rest, bs = front ++ rest ∧ List.Forall₂ R as front ∧ List.Forall₂ R as' rest := by
  induction as generalizing bs with
  | nil => exact ⟨[], bs, rfl, .nil, h⟩
  | cons a as ih =>
    rcases h with _ | ⟨hfirst, hrest⟩
    obtain ⟨front, rest, rfl, hfront, hrest⟩ := ih hrest
    exact ⟨_ :: front, rest, rfl, .cons hfirst hfront, hrest⟩

/-- Pairs correspond if their first and their second parts do. -/
theorem forall₂_zip_zip {α β : Type} {R : α → α → Prop} {S : β → β → Prop} {as as' : List α}
    {bs bs' : List β} (has : List.Forall₂ R as as') (hbs : List.Forall₂ S bs bs') :
    List.Forall₂ (fun p p' => R p.1 p'.1 ∧ S p.2 p'.2) (as.zip bs) (as'.zip bs') := by
  induction has generalizing bs bs' with
  | nil => exact .nil
  | cons hfirst _ ih =>
    rcases hbs with _ | ⟨hsecond, hrest⟩
    · exact .nil
    · exact .cons ⟨hfirst, hsecond⟩ (ih hrest)

/-- Lists with one place in which they differ correspond. -/
theorem forall₂_append_cons {α : Type} {S : α → α → Prop} (hrefl : ∀ a, S a a)
    (before : List α) {a a' : α} (h : S a a') (after : List α) :
    List.Forall₂ S (before ++ a :: after) (before ++ a' :: after) :=
  List.rel_append (List.forall₂_same.2 fun b _ => hrefl b)
    (.cons h (List.forall₂_same.2 fun b _ => hrefl b))

/-- What holds of the pairs of two lists holds the other way round of the pairs the other way
round. -/
theorem forall_mem_zip_comm {α β : Type} {R : β → α → Prop} {as : List α} {bs : List β}
    (h : ∀ p ∈ as.zip bs, R p.2 p.1) : ∀ p ∈ bs.zip as, R p.1 p.2 := by
  intro p hp
  rw [← List.zip_swap, List.mem_map] at hp
  obtain ⟨q, hq, rfl⟩ := hp
  exact h q hq

/-- A list that corresponds to another one and was then reordered can be put back into its order and
corresponds the other way round. -/
theorem exists_perm_zip {α β : Type} {R : β → α → Prop} {as : List α} {middle bs : List β}
    (hlength : as.length = middle.length) (h : ∀ p ∈ as.zip middle, R p.2 p.1)
    (perm : middle.Perm bs) :
    ∃ middle', bs.length = middle'.length ∧ (∀ p ∈ bs.zip middle', R p.1 p.2) ∧
      middle'.Perm as := by
  have hparts := List.forall₂_iff_zip.2
    ⟨hlength.symm, fun {b a} hp => forall_mem_zip_comm h (b, a) hp⟩
  obtain ⟨middle', hmiddle, hperm⟩ := List.perm_comp_forall₂ perm.symm hparts
  obtain ⟨hlength, hzip⟩ := List.forall₂_iff_zip.1 hmiddle
  exact ⟨middle', hlength, fun p hp => hzip hp, hperm⟩

/-- What corresponds in one way corresponds in any way that follows from it. -/
theorem option_rel_imp {α β : Type} {R S : α → β → Prop} (h : ∀ a b, R a b → S a b)
    {found : Option α} {found' : Option β} (hrel : Option.Rel R found found') :
    Option.Rel S found found' := by
  cases hrel with
  | some hab => exact .some (h _ _ hab)
  | none => exact .none

/-- To what is there corresponds something that is there. -/
theorem exists_of_some_rel {α β : Type} {R : α → β → Prop} {found : Option α} {found' : Option β}
    (h : Option.Rel R found found') {a : α} (ha : found = some a) :
    ∃ b, found' = some b ∧ R a b := by
  subst ha
  cases h with
  | some hab => exact ⟨_, rfl, hab⟩

/-- What is there corresponds to something that is there. -/
theorem exists_of_rel_some {α β : Type} {R : α → β → Prop} {found : Option α} {found' : Option β}
    (h : Option.Rel R found found') {b : β} (hb : found' = some b) :
    ∃ a, found = some a ∧ R a b := by
  subst hb
  cases h with
  | some hab => exact ⟨_, rfl, hab⟩

/-! ## Verdicts and entries -/

/-- Checks with the same verdicts one by one have the same verdict in order. -/
theorem Verdict.forEach_congr {α β : Type} {check : α → Verdict} {check' : β → Verdict}
    {as : List α} {bs : List β} (h : List.Forall₂ (fun a b => check a = check' b) as bs) :
    forEach check as = forEach check' bs := by
  induction h with
  | nil => rfl
  | cons hfirst _ ih => rw [forEach, forEach, hfirst, ih]

namespace Entries

variable {α β : Type}

/-- The first entry is found if its key is alike, and otherwise the search goes on. -/
theorem get?_cons (e : Value × α) (rest : List (Value × α)) (key : Value) :
    get? (e :: rest) key = if key.alike e.1 then some e.2 else get? rest key := by
  rw [get?, List.find?_cons]
  split <;> simp_all [get?]

/-- Entries correspond pair by pair, under the same keys, exactly when the keys are the same in the
same order and all pairs correspond. -/
theorem forall₂_iff_zip {R : Value × α → Value × β → Prop} {entries : List (Value × α)}
    {entries' : List (Value × β)} :
    List.Forall₂ (fun e e' => e.1 = e'.1 ∧ R e e') entries entries' ↔
      entries.map Prod.fst = entries'.map Prod.fst ∧ ∀ p ∈ entries.zip entries', R p.1 p.2 := by
  constructor
  · intro h
    refine ⟨?_, fun p hp => (List.forall₂_zip h hp).2⟩
    rw [← List.forall₂_eq_eq_eq, List.forall₂_map_left_iff, List.forall₂_map_right_iff]
    exact h.imp fun _ _ hentry => hentry.1
  · rintro ⟨hkeys, h⟩
    have hlength : entries.length = entries'.length := by
      simpa using congrArg List.length hkeys
    refine List.forall₂_iff_zip.2 ⟨hlength, fun {e e'} hp => ⟨?_, h (e, e') hp⟩⟩
    rw [← List.forall₂_eq_eq_eq, List.forall₂_map_left_iff, List.forall₂_map_right_iff] at hkeys
    exact List.forall₂_zip hkeys hp

/-- Entries that correspond to others and were then reordered can be put back into their order and
correspond the other way round. -/
theorem exists_perm_zip {R : β → α → Prop} {entries : List (Value × α)}
    {middle entries' : List (Value × β)}
    (hkeys : entries.map Prod.fst = middle.map Prod.fst)
    (h : ∀ p ∈ entries.zip middle, R p.2.2 p.1.2) (perm : middle.Perm entries') :
    ∃ middle', entries'.map Prod.fst = middle'.map Prod.fst ∧
      (∀ p ∈ entries'.zip middle', R p.1.2 p.2.2) ∧ middle'.Perm entries := by
  have hzip : ∀ p ∈ middle.zip entries, R p.1.2 p.2.2 :=
    forall_mem_zip_comm (R := fun (e : Value × β) (e' : Value × α) => R e.2 e'.2) h
  have hentries := (forall₂_iff_zip (R := fun e e' => R e.2 e'.2)).2 ⟨hkeys.symm, hzip⟩
  obtain ⟨middle', hmiddle, hperm⟩ := List.perm_comp_forall₂ perm.symm hentries
  obtain ⟨hkeys, hzip⟩ := forall₂_iff_zip.1 hmiddle
  exact ⟨middle', hkeys, hzip, hperm⟩

/-- What is found under a key corresponds if all does that stands under alike keys. -/
theorem get?_rel {R : α → β → Prop} {entries : List (Value × α)} {entries' : List (Value × β)}
    {key : Value}
    (h : List.Forall₂ (fun e e' => e.1 = e'.1 ∧ (key.alike e.1 = true → R e.2 e'.2)) entries
      entries') : Option.Rel R (get? entries key) (get? entries' key) := by
  induction h with
  | nil => exact .none
  | cons hentry _ ih =>
    obtain ⟨hkey, hitem⟩ := hentry
    rw [get?_cons, get?_cons, ← hkey]
    split
    · exact .some (hitem ‹_›)
    · exact ih

/-- What is found under a key is the same if all is that stands under alike keys. -/
theorem get?_congr {entries entries' : List (Value × α)} {key : Value}
    (h : List.Forall₂ (fun e e' => e.1 = e'.1 ∧ (key.alike e.1 = true → e.2 = e'.2)) entries
      entries') : get? entries key = get? entries' key := by
  have hrel := get?_rel h
  generalize get? entries key = found, get? entries' key = found' at hrel
  cases hrel with
  | some hitem => rw [hitem]
  | none => rfl

/-- Which keys are contained is told by the keys. -/
theorem contains_congr {entries : List (Value × α)} {entries' : List (Value × β)}
    (hkeys : entries.map Prod.fst = entries'.map Prod.fst) (key : Value) :
    contains entries key = contains entries' key := by
  have hmap {γ : Type} (es : List (Value × γ)) :
      contains es key = (es.map Prod.fst).any key.alike := by
    rw [List.any_map]
    rfl
  rw [hmap, hmap, hkeys]

end Entries

namespace Schema

/-! ## Elements of sequences -/

/-- Two nodes look alike from above: what stands beside them in a sequence means the same. -/
structure LookAlike (node node' : Value) : Prop where
  /-- They mark the same repetition, if any. -/
  mark : Repetition.ofValue? node = Repetition.ofValue? node'
  /-- Both are absent, or none is. -/
  absent : node.isNull = node'.isNull
  /-- In front of a sequence they tell the same form. -/
  head : form [node] = form [node']

/-- A node looks like itself. -/
theorem LookAlike.refl (node : Value) : LookAlike node node := ⟨rfl, rfl, rfl⟩

/-- A container marks nothing, is not absent, and tells no form but that of an array. -/
theorem look_of_isContainer {node : Value} (h : node.isContainer = true) :
    Repetition.ofValue? node = none ∧ node.isNull = false ∧ form [node] = .array := by
  cases node <;>
    simp_all [Value.isContainer, Value.isSequence, Value.isMapping, Value.items?, Value.entries?,
      Repetition.ofValue?, Value.isNull, form]

/-- A sound node marks nothing, is not absent, and tells no form but that of an array. -/
theorem look_of_soundNode {node : Value} (h : SoundNode node) :
    Repetition.ofValue? node = none ∧ node.isNull = false ∧ form [node] = .array := by
  cases h with
  | tag t => cases t <;> decide
  | sequence hitems =>
    exact look_of_isContainer (by simp [Value.isContainer, Value.isSequence, hitems])
  | object => exact look_of_isContainer rfl

/-- Any two containers look alike. -/
theorem LookAlike.of_isContainer {node node' : Value} (h : node.isContainer = true)
    (h' : node'.isContainer = true) : LookAlike node node' := by
  obtain ⟨hmark, habsent, hhead⟩ := look_of_isContainer h
  obtain ⟨hmark', habsent', hhead'⟩ := look_of_isContainer h'
  exact ⟨hmark.trans hmark'.symm, habsent.trans habsent'.symm, hhead.trans hhead'.symm⟩

/-- Any two sound nodes look alike. -/
theorem LookAlike.of_soundNode {node node' : Value} (h : SoundNode node) (h' : SoundNode node') :
    LookAlike node node' := by
  obtain ⟨hmark, habsent, hhead⟩ := look_of_soundNode h
  obtain ⟨hmark', habsent', hhead'⟩ := look_of_soundNode h'
  exact ⟨hmark.trans hmark'.symm, habsent.trans habsent'.symm, hhead.trans hhead'.symm⟩

/-- The containers among the elements of a sequence that is no enumeration are nodes. -/
theorem mem_sequenceNodes_of_isContainer {items : List Value} {node : Value}
    (hform : form items ≠ .enumeration) (hmem : node ∈ items) (h : node.isContainer = true) :
    node ∈ sequenceNodes items items := by
  cases hkind : form items with
  | enumeration => exact absurd hkind hform
  | union =>
    -- Only the word that tells the form is left out.
    obtain ⟨alternatives, rfl⟩ := form_eq_union_iff.1 hkind
    rcases List.mem_cons.1 hmem with rfl | hmem
    · exact absurd h (by decide)
    · exact hmem
  | array =>
    rw [sequenceNodes_array hkind]
    rcases exists_append_pair items with rfl | ⟨first, rfl⟩ | ⟨lead, before, last, rfl⟩
    · exact hmem
    · exact hmem
    · rw [arrayNodes_append_pair]
      split
      · -- Only the mark is left out, which is a text.
        rename_i hmark
        have hplace : node ∈ lead ∨ node = before ∨ node = last := by simpa using hmem
        rcases hplace with hmem | rfl | rfl
        · exact List.mem_append_left _ hmem
        · exact List.mem_append_right _ List.mem_cons_self
        · rw [(look_of_isContainer h).1] at hmark
          exact absurd hmark (by decide)
      · exact hmem

/-- What holds of the children of a sequence that is no enumeration, and of all that is no
container, holds of its elements. -/
theorem forall_mem_of_children {P : Value → Prop} {schema : Value} {items : List Value}
    (hitems : schema.items? = some items) (hform : form items ≠ .enumeration)
    (hchildren : ∀ child ∈ children schema, P child)
    (hother : ∀ part, part.isContainer = false → P part) : ∀ part ∈ items, P part := by
  intro part hpart
  cases hcontainer : part.isContainer with
  | true =>
    refine hchildren part ?_
    rw [children_of_items? hitems]
    exact mem_sequenceNodes_of_isContainer hform hpart hcontainer
  | false => exact hother part hcontainer

/-- The form is told by the first element alone. -/
theorem form_cons (first : Value) (rest : List Value) : form (first :: rest) = form [first] := by
  cases first <;> rfl

variable {R : Value → Value → Prop} {items items' : List Value}

/-- Elements that look alike make sequences of one form. -/
theorem form_congr (h : List.Forall₂ LookAlike items items') : form items = form items' := by
  cases h with
  | nil => rfl
  | cons hfirst _ => rw [form_cons, hfirst.head, ← form_cons]

/-- Elements that look alike end in a mark together. -/
theorem endsInMark_congr (h : List.Forall₂ LookAlike items items') :
    endsInMark items = endsInMark items' := by
  induction h with
  | nil => rfl
  | cons hfirst hrest ih =>
    rcases hrest with _ | ⟨hsecond, _ | ⟨_, _⟩⟩
    · rfl
    · rw [endsInMark, endsInMark, hsecond.mark]
    · exact ih

/-- Nodes that correspond are reached by the same steps. -/
theorem zipIdx_steps_rel (start : Nat) (h : List.Forall₂ R items items') :
    List.Forall₂ (fun p p' => p.1 = p'.1 ∧ R p.2 p'.2)
      ((items.zipIdx start).map fun p => (([.index p.2] : Location), p.1))
      ((items'.zipIdx start).map fun p => ([.index p.2], p.1)) := by
  induction h generalizing start with
  | nil => exact .nil
  | cons hfirst _ ih =>
    rw [List.zipIdx_cons, List.zipIdx_cons, List.map_cons, List.map_cons]
    exact .cons ⟨rfl, hfirst⟩ (ih (start + 1))

/-- The nodes of sequences whose elements look alike and correspond are reached by the same steps,
and correspond. -/
theorem sequenceSteps_rel (hlook : List.Forall₂ LookAlike items items')
    (h : List.Forall₂ R items items') :
    List.Forall₂ (fun p p' => p.1 = p'.1 ∧ R p.2 p'.2) (sequenceSteps items)
      (sequenceSteps items') := by
  unfold sequenceSteps
  rw [← form_congr hlook]
  cases form items with
  | enumeration => exact .nil
  | union =>
    dsimp only
    rw [List.forall₂_map_left_iff, List.forall₂_map_right_iff]
    exact (List.forall₂_drop 1 h).imp fun _ _ hnode => ⟨rfl, hnode⟩
  | array =>
    refine zipIdx_steps_rel 0 ?_
    rw [arrayNodes, arrayNodes, ← endsInMark_congr hlook]
    split
    · rw [List.dropLast_eq_take, List.dropLast_eq_take, ← h.length_eq]
      exact List.forall₂_take _ h
    · exact h

/-- The children of a sequence are the nodes among its elements. -/
theorem childSteps_of_items? {schema : Value} (h : schema.items? = some items) :
    childSteps schema = sequenceSteps items := by
  rcases Value.items?_eq_some_iff.1 h with rfl | rfl <;> rfl

/-- Nothing is wrong with a sequence itself. -/
theorem nodeVerdict_of_items? {schema : Value} (h : schema.items? = some items) :
    nodeVerdict schema = .conforms := by
  rcases Value.items?_eq_some_iff.1 h with rfl | rfl <;> rfl

/-! ## Entries of object schemas -/

variable {α β : Type}

/-- The required keys are told by the keys. -/
theorem requiredKeys_congr {entries : List (Value × α)} {entries' : List (Value × β)}
    (hkeys : entries.map Prod.fst = entries'.map Prod.fst) :
    requiredKeys entries = requiredKeys entries' := by
  induction entries generalizing entries' with
  | nil =>
    obtain rfl : entries' = [] := by simpa using hkeys.symm
    rfl
  | cons e rest ih =>
    cases entries' with
    | nil => simp at hkeys
    | cons e' rest' =>
      rw [List.map_cons, List.map_cons, List.cons.injEq] at hkeys
      rw [requiredKeys, requiredKeys, ih hkeys.2, hkeys.1]

/-- The verdict on the keys is told by the keys. -/
theorem keyVerdict_congr {entries : List (Value × α)} {entries' : List (Value × β)}
    (hkeys : entries.map Prod.fst = entries'.map Prod.fst) :
    keyVerdict entries = keyVerdict entries' := by
  have hcontains : Entries.contains entries = Entries.contains entries' :=
    funext (Entries.contains_congr hkeys)
  unfold keyVerdict
  rw [hcontains]
  refine Verdict.forEach_congr ((Entries.forall₂_iff_zip (R := fun _ _ => True).2
    ⟨hkeys, fun _ _ => trivial⟩).imp fun e e' h => ?_)
  rw [h.1]

/-- The verdict on the declarations is told by the keys and the strictness. -/
theorem objectVerdict_congr {entries entries' : List (Value × Value)}
    (hkeys : entries.map Prod.fst = entries'.map Prod.fst)
    (hstrict : Entries.get? entries (.string strictKey) =
      Entries.get? entries' (.string strictKey)) :
    objectVerdict entries = objectVerdict entries' := by
  rw [objectVerdict, objectVerdict, keyVerdict_congr hkeys, strictnessVerdict, strictnessVerdict,
    hstrict]

/-- What governs a key corresponds if all does that is found under keys, and if what is absent
corresponds only to what is absent. -/
theorem governing?_rel {S : α → β → Prop} {isAbsent : α → Bool} {isAbsent' : β → Bool}
    {entries : List (Value × α)} {entries' : List (Value × β)}
    (habsent : ∀ a b, S a b → isAbsent a = isAbsent' b)
    (hget : ∀ key, Option.Rel S (Entries.get? entries key) (Entries.get? entries' key))
    (key : Value) :
    Option.Rel S (governing? isAbsent entries key) (governing? isAbsent' entries' key) := by
  have hfield : Option.Rel S (field? entries key) (field? entries' key) := by
    unfold field?
    split
    · exact .none
    · have hkey := hget key
      generalize Entries.get? entries key = found, Entries.get? entries' key = found' at hkey
      cases hkey with
      | some h => exact .some h
      | none =>
        cases key with
        | string s => exact hget _
        | _ => exact .none
  unfold governing?
  generalize field? entries key = found, field? entries' key = found' at hfield
  cases hfield with
  | some h => exact .some h
  | none =>
    have hany := hget (.string anyKey)
    generalize Entries.get? entries _ = found, Entries.get? entries' _ = found' at hany
    cases hany with
    | none => exact .none
    | some h =>
      simp only [Option.filter_some, habsent _ _ h]
      split
      · exact .some h
      · exact .none

/-- Whether an entry holds a node is told by its key and by whether the item is absent. -/
theorem isNodeEntry_congr (key : Value) {node node' : Value} (h : node.isNull = node'.isNull) :
    isNodeEntry key node = isNodeEntry key node' := by
  cases key <;> simp [isNodeEntry, h]

/-- The nodes of object schemas whose items look alike and correspond are reached by the same steps,
and correspond. -/
theorem objectSteps_rel {entries entries' : List (Value × Value)}
    (h : List.Forall₂ (fun e e' => e.1 = e'.1 ∧ LookAlike e.2 e'.2 ∧ R e.2 e'.2) entries entries') :
    List.Forall₂ (fun p p' => p.1 = p'.1 ∧ R p.2 p'.2) (objectSteps entries)
      (objectSteps entries') := by
  unfold objectSteps
  induction h with
  | nil => exact .nil
  | @cons e e' _ _ hentry _ ih =>
    obtain ⟨hkey, hlook, hitem⟩ := hentry
    rw [List.filter_cons, List.filter_cons, ← hkey, isNodeEntry_congr e.1 hlook.absent]
    split
    · rw [List.map_cons, List.map_cons, ← hkey]
      exact .cons ⟨rfl, hitem⟩ ih
    · exact ih

/-- The audits of two schemas with so much room are the same. -/
def SameAudit (room : Int) (schema schema' : Value) : Prop :=
  audit schema room = audit schema' room

/-- Nodes with the same verdict have the same audit if their children have. -/
theorem SameAudit.node {schema schema' : Value} {room : Int}
    (hverdict : nodeVerdict schema = nodeVerdict schema')
    (hsteps : List.Forall₂ (fun p p' => p.1 = p'.1 ∧ SameAudit (room - 1) p.2 p'.2)
      (childSteps schema) (childSteps schema')) : SameAudit room schema schema' := by
  have hchildren : Verdict.forEach (auditChild room) (childSteps schema) =
      Verdict.forEach (auditChild room) (childSteps schema') :=
    Verdict.forEach_congr (hsteps.imp fun p p' h => by
      rw [auditChild, auditChild, h.1, show audit p.2 (room - 1) = _ from h.2])
  rw [SameAudit, audit_eq, audit_eq, hverdict, hchildren]

/-! ## Nodes in a context -/

/-- Elements in front of a node that tells no form tell the form of the whole. -/
theorem form_append_cons (before : List Value) {node : Value} (h : form [node] = .array)
    (after : List Value) : form (before ++ node :: after) = form before := by
  cases before with
  | nil => exact (form_cons node after).trans h
  | cons first before => exact (form_cons first _).trans (form_cons first before).symm

/-- With a container in the hole a context is a container. -/
theorem Context.isContainer_fill (C : Context) {node : Value} (h : node.isContainer = true) :
    (C.fill node).isContainer = true := by
  cases C with
  | hole => exact h
  | _ => rfl

/-- With a node in the hole that tells no form a context tells none. -/
theorem Context.form_fill (C : Context) {node : Value} (h : form [node] = .array) :
    form [C.fill node] = .array := by
  cases C with
  | hole => exact h
  | _ => rfl

/-- With nodes in the hole that look alike a context looks alike. -/
theorem LookAlike.fill {node node' : Value} (h : LookAlike node node') (C : Context) :
    LookAlike (C.fill node) (C.fill node') := by
  cases C with
  | hole => exact h
  | _ => exact .of_isContainer rfl rfl

/-- Every node of a schema stands in the hole of a context that makes up the rest of the schema, as
deep as the node lies. -/
theorem NodeAt.exists_context {depth : Nat} {schema node : Value} (h : NodeAt depth schema node) :
    ∃ C : Context, C.depth = depth ∧ C.fill node = schema := by
  -- No element of a sequence but the first tells the form, and nodes are in no enumeration.
  have hform {before after : List Value} {child : Value}
      (hmem : child ∈ sequenceNodes (before ++ child :: after) (before ++ child :: after)) :
      form before ≠ .enumeration := by
    intro hbefore
    cases before with
    | nil => simp [form] at hbefore
    | cons first before =>
      rw [form_cons] at hbefore
      rw [sequenceNodes, List.cons_append, form_cons, hbefore] at hmem
      exact absurd hmem List.not_mem_nil
  induction h with
  | root => exact ⟨.hole, rfl, rfl⟩
  | @deeper _ schema child _ mem _ ih =>
    obtain ⟨C, rfl, rfl⟩ := ih
    cases schema with
    | list items =>
      obtain ⟨before, after, rfl⟩ := List.append_of_mem (mem_of_mem_sequenceNodes mem)
      exact ⟨.list before C after (hform mem), rfl, rfl⟩
    | tuple items =>
      obtain ⟨before, after, rfl⟩ := List.append_of_mem (mem_of_mem_sequenceNodes mem)
      exact ⟨.tuple before C after (hform mem), rfl, rfl⟩
    | object entries =>
      obtain ⟨key, hmem, hentry⟩ := mem_children_object_iff.1 mem
      obtain ⟨before, after, rfl⟩ := List.append_of_mem hmem
      refine ⟨.object before key C after ?_, rfl, rfl⟩
      rintro rfl
      simp [isNodeEntry] at hentry
    | _ => simp [children] at mem

end Schema

end ShapeSchema
