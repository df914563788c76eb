import ShapeSchema.Proofs.Conformance.Parts
import ShapeSchema.Proofs.Schema.Correspondence
import ShapeSchema.Proofs.Value.Shape
import ShapeSchema.Schema.Rewriting

/-!
# What an answer tells of the data

Apart from enumerations nothing in a schema looks at texts or compares numbers. So the answer of a
check tells no more of the data than their shape down to the depth that the schema reaches, and one
level more, on which it may be asked how many elements or which keys there are
(`check_of_sameShape`).

A node respects a relation of values if it makes no difference between those that are related
(`Node.Respects`), and each form of schema passes this on from the nodes of the schema to the whole.
In a sequence or an object the values go down one level together with the schema. In a union only
the schema does, and the relation is finer than it need be then.
-/

namespace ShapeSchema

/-- Runs that are the same one by one are the same in order. -/
theorem Run.forEach_congr {α β : Type} {run : α → Run} {run' : β → Run} {as : List α} {bs : List β}
    (h : List.Forall₂ (fun a b => run a = run' b) as bs) : forEach run as = forEach run' bs := by
  induction h with
  | nil => rfl
  | cons hfirst _ ih => rw [forEach_cons, forEach_cons, hfirst, ih]

/-- The node makes no difference between values that are related. -/
def Node.Respects (S : Value → Value → Prop) (room : Int) (n : Node) : Prop :=
  ∀ u u', S u u' → n.check (room - 1) u = n.check (room - 1) u'

namespace Checker

variable {room : Int} {S : Value → Value → Prop} {nodes : List Node} {items items' : List Value}
  {v v' : Value}

/-- Elements position by position make no difference if no node does. -/
theorem positions_congr (h : ∀ n ∈ nodes, n.Respects S room) (hitems : List.Forall₂ S items items')
    (start : Nat) : positions room start nodes items = positions room start nodes items' := by
  induction nodes generalizing start items items' with
  | nil => rfl
  | cons n nodes ih =>
    obtain ⟨hn, hnodes⟩ := List.forall_mem_cons.1 h
    cases hitems with
    | nil => rfl
    | cons hitem hrest =>
      rw [positions_cons, positions_cons, Node.runUnder, Node.runUnder, hn _ _ hitem,
        ih hnodes hrest]

/-- One node at all positions makes no difference if the node does not. -/
theorem repeated_congr {n : Node} (h : n.Respects S room) (hitems : List.Forall₂ S items items')
    (start : Nat) : repeated room start n items = repeated room start n items' := by
  induction hitems generalizing start with
  | nil => rfl
  | cons hitem _ ih =>
    rw [repeated_cons, repeated_cons, Node.runUnder, Node.runUnder, h _ _ hitem, ih]

/-- The end of an array makes no difference if the last two nodes do not. -/
theorem arrayEnd_congr {n last : Node} (h : n.Respects S room) (hlast : last.Respects S room)
    (hitems : List.Forall₂ S items items') (start : Nat) :
    arrayEnd room start n last items = arrayEnd room start n last items' := by
  have hpair : ∀ m ∈ [n, last], m.Respects S room := by simpa using ⟨h, hlast⟩
  have hempty : items.isEmpty = items'.isEmpty := by cases hitems <;> rfl
  rw [arrayEnd, arrayEnd, repeated_congr h hitems, positions_congr hpair hitems, hempty,
    hitems.length_eq]

/-- The elements of an array make no difference if no node does. -/
theorem elements_congr (h : ∀ n ∈ nodes, n.Respects S room)
    (hitems : List.Forall₂ S items items') :
    elements room nodes items = elements room nodes items' := by
  rcases exists_append_pair nodes with rfl | ⟨n, rfl⟩ | ⟨lead, n, last, rfl⟩
  · cases hitems <;> rfl
  · -- A lone node is asked about the first position, or about none in both arrays.
    cases hitems with
    | nil => rfl
    | cons hitem _ =>
      exact congrArg (Run.under (.index 0)) (h n List.mem_cons_self _ _ hitem)
  · rw [elements_append_pair, elements_append_pair, hitems.length_eq,
      positions_congr (fun m hm => h m (by simp [hm])) hitems,
      arrayEnd_congr (h n (by simp)) (h last (by simp)) (List.forall₂_drop lead.length hitems)]

/-- An array schema makes no difference between values of one kind if no node does between their
elements. -/
theorem array_congr (h : ∀ n ∈ nodes, n.Respects S room) (hkind : v.kind.text = v'.kind.text)
    (hitems : Option.Rel (List.Forall₂ S) v.items? v'.items?) :
    array nodes room v = array nodes room v' := by
  rw [array, array, hkind]
  generalize v.items? = found, v'.items? = found' at hitems
  cases hitems with
  | some hitems => exact elements_congr h hitems
  | none => rfl

/-- A union makes no difference between values of one kind if no alternative does. -/
theorem attempt_congr {alternatives : List Node} (hkind : v.kind.text = v'.kind.text)
    (h : ∀ n ∈ nodes, n.check (room - 1) v = n.check (room - 1) v') :
    attempt alternatives room v nodes = attempt alternatives room v' nodes := by
  induction nodes with
  | nil => rw [attempt, attempt, unionProblem, unionProblem, hkind]
  | cons n nodes ih =>
    obtain ⟨hn, hnodes⟩ := List.forall_mem_cons.1 h
    rw [attempt, attempt, hn, ih hnodes]

/-- A node that is no container makes no difference between values of the same shape, if there is a
level below them. -/
theorem scalar_congr (schema : Value) {depth : Nat} (h : v.SameShape (depth + 1) v') :
    scalar schema room v = scalar schema room v' := by
  simp only [scalar, h.tagAccepts_eq, h.sameClass.kind]

/-- An object schema makes no difference between values of one kind if what governs the keys does
not. -/
theorem object_congr {strict : Bool} {schema : List (Value × Value)}
    {fields : List (Value × Node)} (hkind : v.kind.text = v'.kind.text)
    (h : ∀ key n, Schema.governing? (fun n => n.schema.isNull) fields key = some n →
      n.Respects S room)
    (hentries : Option.Rel (List.Forall₂ fun e e' => e.1 = e'.1 ∧ S e.2 e'.2)
      v.entries? v'.entries?) :
    object strict schema fields room v = object strict schema fields room v' := by
  rw [object, object, hkind]
  generalize v.entries? = found, v'.entries? = found' at hentries
  cases hentries with
  | none => rfl
  | @some data data' hdata =>
    -- The keys alone tell which required one is missing, and what governs each.
    have hmissing (required : List String) :
        missingKey? required data = missingKey? required data' := by
      have hcontains := funext (Entries.contains_congr (Entries.forall₂_iff_zip.1 hdata).1)
      rw [missingKey?, missingKey?, hcontains]
    have hrun (strict : Bool) : Run.forEach (entry strict fields room) data =
        Run.forEach (entry strict fields room) data' := by
      refine Run.forEach_congr (hdata.imp fun e e' hentry => ?_)
      rw [entry, entry, ← hentry.1]
      split
      · rename_i n hgoverning
        rw [Node.runUnder, Node.runUnder, h _ n hgoverning _ _ hentry.2]
      · rfl
    simp only [entries, hmissing, hrun]

end Checker

namespace Schema

/-- A node that is no container makes no difference between values of the same shape, if there is a
level below them. -/
theorem respects_of_not_isContainer (strict : Bool) (room : Int) (depth : Nat) {part : Value}
    (h : part.isContainer = false) :
    (node strict part).Respects (Value.SameShape (depth + 1)) room := by
  intro u u' hu
  obtain ⟨hitems, hentries⟩ := Value.isContainer_eq_false_iff.1 h
  change run strict part (room - 1) u = run strict part (room - 1) u'
  rw [run_scalar strict _ u hitems hentries, run_scalar strict _ u' hitems hentries,
    Checker.scalar_congr part hu]

/-- A schema without enumerations makes no difference between values of the same shape, one level
further down than the schema is high. -/
theorem run_of_sameShape (strict : Bool) {schema : Value} (hschema : EveryNode NoEnumeration schema)
    {depth : Nat} (hheight : height schema ≤ depth) {v v' : Value} (h : v.SameShape (depth + 1) v')
    (room : Int) : run strict schema room v = run strict schema room v' := by
  induction schema using induct_children generalizing depth v v' room with
  | step schema ih =>
    obtain ⟨hclass, hitems, hentries⟩ := h
    have hlower : ∀ child ∈ children schema, height child < depth := by
      intro child hmem
      have hbelow := ((height_le_iff schema depth).1 (by omega)).2 child hmem
      omega
    -- The parts of the values are one level lower, and so are the children.
    have hchildren : ∀ child ∈ children schema,
        (node strict child).Respects (Value.SameShape depth) room := by
      intro child hmem u u' hu
      obtain ⟨below, rfl⟩ := Nat.exists_eq_add_of_lt (hlower child hmem)
      exact ih child hmem (hschema.child hmem) (Nat.le_add_right _ _) hu (room - 1)
    rcases kinds schema with ⟨elements, helements⟩ | ⟨entries, rfl⟩ | ⟨hnone, hnone'⟩
    · have hform := hschema.root elements helements
      rw [run_of_items? strict room v helements, run_of_items? strict room v' helements]
      cases hkind : form elements with
      | enumeration => exact absurd hkind hform
      | union =>
        -- The alternatives are lower than the union, and the values are the same.
        obtain ⟨alternatives, rfl⟩ := form_eq_union_iff.1 hkind
        have halternatives : ∀ n ∈ alternatives.map (node strict),
            n.check (room - 1) v = n.check (room - 1) v' := by
          rw [List.forall_mem_map]
          intro a ha
          have hmem : a ∈ children schema := by rwa [children_of_items? helements]
          exact ih a hmem (hschema.child hmem) (Nat.le_of_lt (hlower a hmem))
            ⟨hclass, hitems, hentries⟩ (room - 1)
        rw [Checker.sequence_union, Checker.union, Checker.union,
          Checker.attempt_congr hclass.kind halternatives]
      | array =>
        rw [Checker.sequence_array hkind, Checker.array_congr _ hclass.kind hitems]
        rw [List.forall_mem_map]
        intro part hpart
        -- A repeat mark is no node, but where there is one there is a node below the schema too.
        obtain ⟨child, hchild⟩ := exists_mem_children_of_mem helements hkind hpart
        obtain ⟨below, rfl⟩ := Nat.exists_eq_add_of_lt (hlower child hchild)
        exact forall_mem_of_children helements hform hchildren
          (fun other => respects_of_not_isContainer strict room _) part hpart
    · rw [run_object, run_object, Checker.object_congr hclass.kind (fun key n hgoverning => ?_)
        hentries]
      rw [governing?_fields] at hgoverning
      obtain ⟨part, hfound, rfl⟩ := Option.map_eq_some_iff.1 hgoverning
      exact hchildren part (governing?_mem_children hfound)
    · rw [run_scalar strict room v hnone hnone', run_scalar strict room v' hnone hnone',
        Checker.scalar_congr schema ⟨hclass, hitems, hentries⟩]

/-- **Without enumerations an answer tells nothing of the data but their shape.** Checks of values
of the same shape, one level further down than the schema is high, have the same answer and log the
same lines. -/
theorem check_of_sameShape {schema : Value} (hschema : EveryNode NoEnumeration schema)
    {v v' : Value} (h : Value.SameShape (height schema + 1) v v') (strict : Bool) (start : String)
    (limit : Int) :
    check strict schema start limit v = check strict schema start limit v' ∧
      checkLog strict schema start limit v = checkLog strict schema start limit v' := by
  rw [check, check, checkLog, checkLog, run_of_sameShape strict hschema (Nat.le_refl _) h]
  exact ⟨rfl, rfl⟩

/-- What is refused in an array is told by its kind, and not by what it says or what lies below
it. -/
theorem check_of_sameShape_array :
    EveryNode NoEnumeration (.object [(.string "a", .list [.string "integer"])]) ∧
      Value.SameShape (height (.object [(.string "a", .list [.string "integer"])]) + 1)
        (.object [(.string "a", .list [.list [.list [.string "b"]], .integer 1, .null])])
        (.object [(.string "a", .tuple [.list [.list []], .integer 2, .null])]) ∧
      check true (.object [(.string "a", .list [.string "integer"])]) "$" 5
          (.object [(.string "a", .list [.list [.list [.string "b"]], .integer 1, .null])]) =
        check true (.object [(.string "a", .list [.string "integer"])]) "$" 5
          (.object [(.string "a", .tuple [.list [.list []], .integer 2, .null])]) := by
  have hschema : EveryNode NoEnumeration (.object [(.string "a", .list [.string "integer"])]) := by
    refine everyNode_of_children nofun fun child hchild => ?_
    obtain rfl := List.mem_singleton.1 hchild
    refine everyNode_of_children (fun items hitems => ?_) fun child hchild => ?_
    · obtain rfl := Option.some.inj hitems
      decide
    · obtain rfl := List.mem_singleton.1 hchild
      exact everyNode_of_children nofun fun child hchild => absurd hchild List.not_mem_nil
  have hlists : Value.SameShape 1 (.list [.list [.string "b"]]) (.list [.list []]) :=
    ⟨⟨rfl, rfl⟩, .some (.cons ⟨rfl, rfl⟩ .nil), .none⟩
  have hnumbers : Value.SameShape 1 (.integer 1) (.integer 2) := ⟨⟨rfl, rfl⟩, .none, .none⟩
  have harrays : Value.SameShape 2 (.list [.list [.list [.string "b"]], .integer 1, .null])
      (.tuple [.list [.list []], .integer 2, .null]) :=
    ⟨⟨rfl, rfl⟩, .some (.cons hlists (.cons hnumbers (.cons (.refl 1 .null) .nil))), .none⟩
  have hshape : Value.SameShape (height (.object [(.string "a", .list [.string "integer"])]) + 1)
      (.object [(.string "a", .list [.list [.list [.string "b"]], .integer 1, .null])])
      (.object [(.string "a", .tuple [.list [.list []], .integer 2, .null])]) :=
    ⟨⟨rfl, rfl⟩, .none, .some (.cons ⟨rfl, harrays⟩ .nil)⟩
  exact ⟨hschema, hshape, (check_of_sameShape hschema hshape true "$" 5).1⟩

end Schema

end ShapeSchema
