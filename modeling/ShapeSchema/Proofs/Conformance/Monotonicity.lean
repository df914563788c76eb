import ShapeSchema.Proofs.Conformance.Acceptance
import ShapeSchema.Proofs.Schema.Correspondence

/-!
# What makes more values conform

Against a schema that an audit accepts, a check has nothing to say exactly of the values that
conform (`check_eq_nothing_iff_accepts`), so that laws of checks are laws of conformance, in which
there is no order and no limit. Two of them are proved here. Whatever conforms in strict mode
conforms in lenient mode (`check_lenient_of_check_strict`). And a schema takes in more when one of
its nodes does, however deep that node lies (`check_fill_of_check`), because no rule of conformance
asks that something should not conform to a part.

`Narrower` says of two schemas that the second takes in all that the first does. There is one lemma
for each form of schema that has parts.
-/

namespace ShapeSchema.Schema

/-- What an audit accepts follows the grammar and is no higher than the limit. -/
theorem wellFormed_of_checkSchema {schema : Value} {auditStart : String} {limit : Int}
    (haudit : checkSchema schema auditStart limit = .nothing) :
    WellFormed schema ∧ (height schema : Int) ≤ limit := by
  rwa [checkSchema, Verdict.answer_eq_nothing_iff, audit_eq_conforms_iff] at haudit

/-- Against a schema that an audit accepts, a check under the same limit has nothing to say exactly
of the values that conform. -/
theorem check_eq_nothing_iff_accepts {schema : Value} {auditStart : String} {limit : Int}
    (haudit : checkSchema schema auditStart limit = .nothing) (strict : Bool) (start : String)
    (v : Value) : check strict schema start limit v = .nothing ↔ Accepts strict schema v := by
  obtain ⟨hschema, hheight⟩ := wellFormed_of_checkSchema haudit
  rw [check, Verdict.answer_eq_nothing_iff]
  refine ⟨accepts_of_run, fun haccepts => ?_⟩
  rcases run_of_wellFormed strict hschema hheight v with h | ⟨violation, h, hcode⟩
  · exact h
  · refine absurd ⟨violation, h, fun hproblem => ?_⟩ (not_rejects_of_accepts haccepts limit)
    rw [hproblem] at hcode
    exact absurd hcode (by decide)

/-! ## Strict mode -/

/-- What an object schema declares lenient in strict mode it declares lenient in lenient mode. -/
theorem strictness_lenient {entries : List (Value × Value)}
    (h : strictness entries true = false) : strictness entries false = false := by
  unfold strictness at *
  split at h
  · exact h
  · simp at h

/-- What conforms in strict mode conforms in lenient mode. -/
theorem Accepts.lenient {schema v : Value} (h : Accepts true schema v) :
    Accepts false schema v := by
  induction h with
  | tag holds => exact .tag holds
  | enumeration hitems mem same => exact .enumeration hitems mem same
  | union hitems mem _ ih => exact .union hitems mem ih
  | nil hschema hv => exact .nil hschema hv
  | single hschema hform hv _ ih => exact .single hschema hform hv ih
  | repeated hschema hform hmark hv hlength hrest _ _ hlead hall =>
    exact .repeated hschema hform hmark hv hlength hrest hlead hall
  | fixed hschema hform htwo hmark hv hlength _ ih =>
    exact .fixed hschema hform htwo hmark hv hlength ih
  | object sound required covered _ ih =>
    -- The mode comes in only where a key is covered by nothing.
    exact .object sound required
      (fun e he huncovered => strictness_lenient (covered e he huncovered)) ih

/-- **Turning strict mode off rejects nothing.** If a check in strict mode has nothing to say of a
value then neither has the check in lenient mode, whatever objects say of their own strictness. -/
theorem check_lenient_of_check_strict {schema : Value} {auditStart : String} {limit : Int}
    (haudit : checkSchema schema auditStart limit = .nothing) {start : String} {v : Value}
    (h : check true schema start limit v = .nothing) :
    check false schema start limit v = .nothing := by
  rw [check_eq_nothing_iff_accepts haudit] at h ⊢
  exact h.lenient

/-- In a union an object that refuses further keys, one that takes them and one that says neither:
the alternative that takes the value in strict mode is the last one, in lenient mode the first. -/
theorem check_lenient_union :
    checkSchema (.list [.string "or",
        .object [(.string "a?", .string "string")],
        .object [(.string "a", .string "integer"), (.string strictKey, .boolean true)],
        .object [(.string anyKey, .string "string")]]) "$" 2 = .nothing ∧
      check true (.list [.string "or",
        .object [(.string "a?", .string "string")],
        .object [(.string "a", .string "integer"), (.string strictKey, .boolean true)],
        .object [(.string anyKey, .string "string")]]) "$" 2
          (.object [(.string "b", .string "x")]) = .nothing ∧
      check false (.list [.string "or",
        .object [(.string "a?", .string "string")],
        .object [(.string "a", .string "integer"), (.string strictKey, .boolean true)],
        .object [(.string anyKey, .string "string")]]) "$" 2
          (.object [(.string "b", .string "x")]) = .nothing := by
  have haudit : checkSchema (.list [.string "or",
      .object [(.string "a?", .string "string")],
      .object [(.string "a", .string "integer"), (.string strictKey, .boolean true)],
      .object [(.string anyKey, .string "string")]]) "$" 2 = .nothing := rfl
  have hstrict : check true (.list [.string "or",
      .object [(.string "a?", .string "string")],
      .object [(.string "a", .string "integer"), (.string strictKey, .boolean true)],
      .object [(.string anyKey, .string "string")]]) "$" 2
        (.object [(.string "b", .string "x")]) = .nothing := rfl
  exact ⟨haudit, hstrict, check_lenient_of_check_strict haudit hstrict⟩

/-! ## Parts of schemas -/

/-- Where the nodes of two array schemas correspond, and so do the elements of two arrays, the pairs
that have to agree correspond too. -/
theorem Pairs.rel {R S : Value → Value → Prop} {nodes nodes' items items' : List Value}
    {pairs : List (Value × Value)}
    (hmark : ∀ node node', R node node' → Repetition.ofValue? node = Repetition.ofValue? node')
    (hmissing : S .missing .missing) (h : Pairs nodes items pairs)
    (hnodes : List.Forall₂ R nodes nodes') (hitems : List.Forall₂ S items items') :
    ∃ pairs', Pairs nodes' items' pairs' ∧
      List.Forall₂ (fun p p' => R p.1 p'.1 ∧ S p.2 p'.2) pairs pairs' := by
  cases h with
  | nil =>
    rcases hnodes, hitems with ⟨⟨⟩, ⟨⟩⟩
    exact ⟨[], .nil, .nil⟩
  | single =>
    rcases hnodes with _ | ⟨hnode, ⟨⟩⟩
    refine ⟨_, .single, .cons ⟨hnode, ?_⟩ .nil⟩
    rcases hitems with _ | ⟨hfirst, _⟩
    · exact hmissing
    · exact hfirst
  | @repeated lead front rest node mark r hr hlength hrest =>
    obtain ⟨lead', last', rfl, hlead, hlast⟩ := exists_append_of_forall₂ hnodes
    obtain ⟨front', rest', rfl, hfront, hrest'⟩ := exists_append_of_forall₂ hitems
    rcases hlast with _ | ⟨hnode, _ | ⟨hlast, ⟨⟩⟩⟩
    refine ⟨_, .repeated ((hmark _ _ hlast).symm.trans hr)
      (by rw [← hlead.length_eq, hlength, hfront.length_eq]) (fun honce hempty => ?_), ?_⟩
    · subst hempty
      exact hrest honce (List.forall₂_nil_right_iff.1 hrest')
    · refine List.rel_append (forall₂_zip_zip hlead hfront) ?_
      rw [List.forall₂_map_left_iff, List.forall₂_map_right_iff]
      exact hrest'.imp fun _ _ hitem => ⟨hnode, hitem⟩
  | @fixed lead front node last item final hnone hlength =>
    obtain ⟨lead', last', rfl, hlead, hlast⟩ := exists_append_of_forall₂ hnodes
    obtain ⟨front', rest', rfl, hfront, hrest⟩ := exists_append_of_forall₂ hitems
    rcases hlast with _ | ⟨hnode, _ | ⟨hlast, ⟨⟩⟩⟩
    rcases hrest with _ | ⟨hitem, _ | ⟨hfinal, ⟨⟩⟩⟩
    refine ⟨_, .fixed ((hmark _ _ hlast).symm.trans hnone)
      (by rw [← hlead.length_eq, hlength, hfront.length_eq]), ?_⟩
    exact List.rel_append (forall₂_zip_zip hlead hfront)
      (.cons ⟨hnode, hitem⟩ (.cons ⟨hlast, hfinal⟩ .nil))

/-- Sound declarations stay sound if there is something under the same keys and if the strictness is
the same. -/
theorem SoundEntries.congr {R : Value → Value → Prop} {entries entries' : List (Value × Value)}
    (h : SoundEntries entries)
    (hget : ∀ key, Option.Rel R (Entries.get? entries key) (Entries.get? entries' key))
    (hstrict : Entries.get? entries (.string strictKey) =
      Entries.get? entries' (.string strictKey)) : SoundEntries entries' where
  distinct name hname := by
    have hcontains (key : Value) :
        Entries.contains entries key = Entries.contains entries' key := by
      have hkey := hget key
      rw [Entries.contains_eq_isSome_get?, Entries.contains_eq_isSome_get?]
      generalize Entries.get? entries key = found, Entries.get? entries' key = found' at hkey
      cases hkey <;> rfl
    rw [← hcontains] at hname ⊢
    exact h.distinct name hname
  strictness v hv := h.strictness v (hstrict.trans hv)

/-- The second schema takes in whatever the first one does. -/
def Narrower (strict : Bool) (schema schema' : Value) : Prop :=
  ∀ v, Accepts strict schema v → Accepts strict schema' v

namespace Narrower

variable {strict : Bool} {schema schema' : Value}

/-- A schema takes in what it does. -/
theorem refl (strict : Bool) (schema : Value) : Narrower strict schema schema := fun _ h => h

/-- An enumeration takes in more if it has more members. -/
theorem enumeration {members members' : List Value}
    (hitems : schema.items? = some (.string "enum" :: members))
    (hitems' : schema'.items? = some (.string "enum" :: members')) (h : members ⊆ members') :
    Narrower strict schema schema' := by
  intro v haccepts
  rcases haccepts.sequence hitems with
    ⟨_, heq, member, hmem, hsame⟩ | ⟨_, heq, -⟩ | ⟨hform, -⟩
  · cases heq
    exact .enumeration hitems' (h hmem) hsame
  · simp at heq
  · simp [form] at hform

/-- A union takes in more if for each alternative there is one that takes in more. -/
theorem union {alternatives alternatives' : List Value}
    (hitems : schema.items? = some (.string "or" :: alternatives))
    (hitems' : schema'.items? = some (.string "or" :: alternatives'))
    (h : ∀ a ∈ alternatives, ∃ a' ∈ alternatives', Narrower strict a a') :
    Narrower strict schema schema' := by
  intro v haccepts
  rcases haccepts.sequence hitems with ⟨_, heq, -⟩ | ⟨_, heq, a, hmem, ha⟩ | ⟨hform, -⟩
  · simp at heq
  · cases heq
    obtain ⟨a', hmem', hnarrower⟩ := h a hmem
    exact .union hitems' hmem' (hnarrower v ha)
  · simp [form] at hform

/-- An array schema takes in more if its elements do. A mark takes in nothing, and is kept. -/
theorem array {items items' : List Value} (hitems : schema.items? = some items)
    (hitems' : schema'.items? = some items') (hform : form items = .array)
    (h : List.Forall₂ (fun node node' => LookAlike node node' ∧ Narrower strict node node') items
      items') : Narrower strict schema schema' := by
  intro v haccepts
  have hform' : form items' = .array :=
    (form_congr (h.imp fun _ _ hpart => hpart.1)).symm.trans hform
  rcases haccepts.sequence hitems with
    ⟨_, rfl, -⟩ | ⟨_, rfl, -⟩ | ⟨-, data, pairs, hv, hpairs, hall⟩
  · simp [form] at hform
  · simp [form] at hform
  · obtain ⟨pairs', hpairs', hrel⟩ := hpairs.rel (S := Eq) (fun _ _ hpart => hpart.1.mark) rfl h
      (List.forall₂_same.2 fun _ _ => rfl)
    refine accepts_of_pairs hitems' hform' hv hpairs' fun p' hp' => ?_
    obtain ⟨p, hp, ⟨-, hnarrower⟩, hitem⟩ := exists_mem_of_forall₂ hrel.flip hp'
    exact hitem ▸ hnarrower p.2 (hall p hp)

/-- An object schema takes in more if it requires no further key, declares the same strictness, and
if what it has under each key takes in more. -/
theorem object {entries entries' : List (Value × Value)}
    (hkeys : ∀ e' ∈ entries', ∃ e ∈ entries, e.1 = e'.1)
    (hstrict : Entries.get? entries (.string strictKey) =
      Entries.get? entries' (.string strictKey))
    (hget : ∀ key, Option.Rel (fun node node' => LookAlike node node' ∧ Narrower strict node node')
      (Entries.get? entries key) (Entries.get? entries' key)) :
    Narrower strict (.object entries) (.object entries') := by
  have hstrictness : strictness entries strict = strictness entries' strict := by
    rw [strictness, strictness, hstrict]
  have hgoverning := governing?_rel (fun _ _ hpart => hpart.1.absent) hget
  intro v haccepts
  cases haccepts with
  | object sound required covered accepts =>
    refine .object (sound.congr hget hstrict) (fun e' he' => ?_) (fun e he huncovered => ?_)
      fun e he node' hnode' => ?_
    · obtain ⟨e, he, heq⟩ := hkeys e' he'
      exact heq ▸ required e he
    · rw [← hstrictness]
      refine covered e he fun node hnode => ?_
      obtain ⟨node', hnode', -⟩ := exists_of_some_rel (hgoverning e.1) (governs_iff.1 hnode)
      exact huncovered node' (governs_iff.2 hnode')
    · obtain ⟨node, hnode, -, hnarrower⟩ :=
        exists_of_rel_some (hgoverning e.1) (governs_iff.1 hnode')
      exact hnarrower e.2 (accepts e he node (governs_iff.2 hnode))
  | _ => simp_all [Value.items?]

/-- A sequence takes in more if one of its nodes does. -/
theorem sequence_append_cons {before after : List Value} {node node' : Value}
    (hitems : schema.items? = some (before ++ node :: after))
    (hitems' : schema'.items? = some (before ++ node' :: after))
    (hform : form before ≠ .enumeration) (hhead : form [node] = .array)
    (hlook : LookAlike node node') (h : Narrower strict node node') :
    Narrower strict schema schema' := by
  have hparts := forall₂_append_cons
    (S := fun part part' => LookAlike part part' ∧ Narrower strict part part')
    (fun part => ⟨.refl part, .refl strict part⟩) before ⟨hlook, h⟩ after
  cases hbefore : form before with
  | enumeration => exact absurd hbefore hform
  | array =>
    exact .array hitems hitems' ((form_append_cons before hhead after).trans hbefore) hparts
  | union =>
    -- The word that tells the form stands in front of the node.
    obtain ⟨before, rfl⟩ := form_eq_union_iff.1 hbefore
    refine .union hitems hitems' fun a ha => ?_
    obtain ⟨a', ha', -, hnarrower⟩ := exists_mem_of_forall₂ (List.forall₂_cons.1 hparts).2 ha
    exact ⟨a', ha', hnarrower⟩

/-- A schema takes in more if a node in it does. -/
theorem fill (C : Context) {node node' : Value} (hhead : form [node] = .array)
    (hlook : LookAlike node node') (h : Narrower strict node node') :
    Narrower strict (C.fill node) (C.fill node') := by
  induction C with
  | hole => exact h
  | list before inner after hform ih =>
    exact .sequence_append_cons rfl rfl hform (inner.form_fill hhead) (hlook.fill inner) ih
  | tuple before inner after hform ih =>
    exact .sequence_append_cons rfl rfl hform (inner.form_fill hhead) (hlook.fill inner) ih
  | object before key inner after hkey ih =>
    have hentries {S : Value × Value → Value × Value → Prop} (hrefl : ∀ e, S e e)
        (hentry : S (key, inner.fill node) (key, inner.fill node')) :=
      forall₂_append_cons hrefl before hentry after
    refine .object (fun e' he' => ?_) (Entries.get?_congr ?_) fun key => Entries.get?_rel ?_
    · have hkeys := hentries (S := fun e e' => e.1 = e'.1) (fun _ => rfl) rfl
      exact exists_mem_of_forall₂ hkeys.flip he'
    · refine hentries (by simp) ⟨rfl, fun halike => ?_⟩
      exact absurd ((Value.alike_string_iff _ _).1 halike) hkey
    · exact hentries (fun e => ⟨rfl, fun _ => ⟨.refl e.2, .refl strict e.2⟩⟩)
        ⟨rfl, fun _ => ⟨hlook.fill inner, ih⟩⟩

end Narrower

/-- **Checks are monotone in the nodes of a schema.** If every value against which there is nothing
to say for one node is one against which there is nothing to say for another, then the same holds
for the schemas that have these nodes in the same place. -/
theorem check_fill_of_check (C : Context) {strict : Bool} {limit : Int} {node node' : Value}
    {auditStart : String} (hnode : checkSchema node auditStart limit = .nothing)
    (hnode' : checkSchema node' auditStart limit = .nothing)
    (hfill : checkSchema (C.fill node') auditStart limit = .nothing)
    (h : ∀ v, check strict node "" limit v = .nothing → check strict node' "" limit v = .nothing)
    {start : String} {v : Value} (hv : check strict (C.fill node) start limit v = .nothing) :
    check strict (C.fill node') start limit v = .nothing := by
  have hsound {schema : Value} (haudit : checkSchema schema auditStart limit = .nothing) :
      SoundNode schema := ((wellFormed_iff schema).1 (wellFormed_of_checkSchema haudit).1).1
  have hnarrower : Narrower strict node node' := by
    intro w hw
    rw [← check_eq_nothing_iff_accepts hnode strict ""] at hw
    exact (check_eq_nothing_iff_accepts hnode' strict "" w).1 (h w hw)
  have hlook := LookAlike.of_soundNode (hsound hnode) (hsound hnode')
  have hhead := (look_of_soundNode (hsound hnode)).2.2
  rw [check, Verdict.answer_eq_nothing_iff] at hv
  exact (check_eq_nothing_iff_accepts hfill strict start v).2
    (hnarrower.fill C hhead hlook v (accepts_of_run hv))

/-- A node for integers may be widened to all numbers, here in a repeated element of a field of an
object that is an alternative of a union. -/
theorem check_fill_number :
    checkSchema (.string "integer") "$" 3 = .nothing ∧
      checkSchema (.string "number") "$" 3 = .nothing ∧
      checkSchema (.list [.string "or", .string "string",
        .object [(.string "x?", .list [.string "number", .string "*"])]]) "$" 3 = .nothing ∧
      (∀ v, check true (.string "integer") "" 3 v = .nothing →
        check true (.string "number") "" 3 v = .nothing) ∧
      check true (.list [.string "or", .string "string",
        .object [(.string "x?", .list [.string "integer", .string "*"])]]) "$" 3
          (.object [(.string "x", .list [.integer 1, .integer 2])]) = .nothing ∧
      check true (.list [.string "or", .string "string",
        .object [(.string "x?", .list [.string "number", .string "*"])]]) "$" 3
          (.object [(.string "x", .list [.integer 1, .integer 2])]) = .nothing := by
  have hinteger : checkSchema (.string "integer") "$" 3 = .nothing := rfl
  have hnumber : checkSchema (.string "number") "$" 3 = .nothing := rfl
  have haudit : checkSchema (.list [.string "or", .string "string",
      .object [(.string "x?", .list [.string "number", .string "*"])]]) "$" 3 = .nothing := rfl
  have hwider : ∀ v, check true (.string "integer") "" 3 v = .nothing →
      check true (.string "number") "" 3 v = .nothing := by
    intro v h
    rw [check_eq_nothing_iff_accepts hinteger] at h
    rw [check_eq_nothing_iff_accepts hnumber]
    obtain ⟨t, ht, hholds⟩ := h.scalar rfl rfl
    obtain rfl : t = .integer := by
      cases t <;> simp_all [Tag.text]
    rcases hholds with ⟨n, hn⟩ | ⟨x, _, hx, -⟩
    · exact .tag (t := .number) (.inl ⟨n, hn⟩)
    · exact .tag (t := .number) (.inr (.inl ⟨x, hx⟩))
  have hcheck : check true (.list [.string "or", .string "string",
      .object [(.string "x?", .list [.string "integer", .string "*"])]]) "$" 3
        (.object [(.string "x", .list [.integer 1, .integer 2])]) = .nothing := rfl
  exact ⟨hinteger, hnumber, haudit, hwider, hcheck, check_fill_of_check
    (.list [.string "or", .string "string"] (.object [] (.string "x?")
      (.list [] .hole [.string "*"] (by decide)) [] (by simp [strictKey])) [] (by decide))
    hinteger hnumber haudit hwider hcheck⟩

end ShapeSchema.Schema
