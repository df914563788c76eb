import ShapeSchema.CommandLine.Document
import ShapeSchema.Proofs.Value.Equality

/-!
# What holds of every document

Two things hold of whatever value a document spells: the keys of its objects are texts
(`documentLoader_named`), and no two keys of an object are alike (`documentLoader_distinct`).

The reader is gone through once for both. `Built P` says that `P` holds of the values from which the
reader starts, and is kept when it puts values together. What has been read so far stands in the
frames of the containers that are open, and `State.All P` says of a state that `P` holds of all of
it. A token keeps this (`State.next_all`), so that it holds in the end (`read_all`).
-/

namespace ShapeSchema.Json

/-- What holds of the values that a reader puts together, step by step. -/
structure Built (P : Value → Prop) : Prop where
  /-- It holds of values without parts. -/
  scalar : ∀ v : Value, v.items? = none → v.entries? = none → v.kind ≠ .set → P v
  /-- It holds of an array if it does of the elements. -/
  list : ∀ items, (∀ v ∈ items, P v) → P (.list items)
  /-- It holds of the object without members. -/
  empty : P (.object [])
  /-- It holds of an object with a further member, or another value for a member. -/
  insert : ∀ entries name v, P (.object entries) → P v →
    P (.object (Entries.insert entries (.string name) v))

/-- It holds of what an open container has so far. -/
def Frame.All (P : Value → Prop) : Frame → Prop
  | .element items => ∀ v ∈ items, P v
  | .member entries _ => P (.object entries)

/-- It holds of what has been read so far. -/
def State.All (P : Value → Prop) : State → Prop
  | .value frames => ∀ f ∈ frames, f.All P
  | .name entries frames => P (.object entries) ∧ ∀ f ∈ frames, f.All P
  | .colon entries _ frames => P (.object entries) ∧ ∀ f ∈ frames, f.All P
  | .afterElement items frames => (∀ v ∈ items, P v) ∧ ∀ f ∈ frames, f.All P
  | .afterMember entries frames => P (.object entries) ∧ ∀ f ∈ frames, f.All P
  | .done v => P v

section

variable {P : Value → Prop} (hP : Built P)

include hP

/-- A complete value goes into the container around it. -/
theorem State.complete_all {v : Value} (hv : P v) {frames : List Frame}
    (h : ∀ f ∈ frames, f.All P) : (State.complete v frames).All P := by
  cases frames with
  | nil => exact hv
  | cons f frames =>
    obtain ⟨hf, hframes⟩ := List.forall_mem_cons.1 h
    cases f with
    | element items => exact ⟨List.forall_mem_cons.2 ⟨hv, hf⟩, hframes⟩
    | member entries name => exact ⟨hP.insert entries name v hf hv, hframes⟩

/-- The words stand for values without parts. -/
theorem word?_all {c : Char} {rest : List Char} {w : Word} (h : word? c rest = some w) :
    P w.value := by
  have hmem : w ∈ words := List.mem_of_find?_eq_some h
  simp only [words, List.mem_cons, List.not_mem_nil, or_false] at hmem
  rcases hmem with rfl | rfl | rfl | rfl | rfl | rfl <;> exact hP.scalar _ rfl rfl (by decide)

/-- Numbers have no parts. -/
theorem Numeral.value_all {limits : Limits} {n : Numeral} {v : Value}
    (h : n.value limits = .ok v) : P v := by
  unfold Numeral.value at h
  split at h
  · split at h
    · cases h
    · cases h
      exact hP.scalar _ rfl rfl (by simp [Value.kind])
  · cases h
    exact hP.scalar _ rfl rfl (by simp [Value.kind])

/-- A value that is no container and no string is complete. -/
theorem scalar_all {limits : Limits} {frames : List Frame} {offset : Nat} {c : Char}
    {rest : List Char} {s : Scanned State rest} (h : ∀ f ∈ frames, f.All P)
    (hs : scalar limits frames offset c rest = .ok s) : s.value.All P := by
  unfold scalar at hs
  split at hs
  · split at hs
    · cases hs
      exact State.complete_all hP (word?_all hP ‹_›) h
    · cases hs
  · split at hs
    · cases hs
    · split at hs
      · cases hs
      · cases hs
        exact State.complete_all hP (Numeral.value_all hP ‹_›) h

/-- An opened container holds nothing yet. -/
theorem opened_all {limits : Limits} {container : Container} {frames : List Frame} {offset : Nat}
    {rest : List Char} {s : Scanned State rest} (h : ∀ f ∈ frames, f.All P)
    (hs : opened limits container frames offset rest = .ok s) : s.value.All P := by
  unfold opened at hs
  split at hs
  · cases hs
  · cases container with
    | array =>
      cases hs
      exact List.forall_mem_cons.2 ⟨fun v hv => absurd hv List.not_mem_nil, h⟩
    | object =>
      cases hs
      exact ⟨hP.empty, h⟩

/-- A token keeps what holds of all that has been read. -/
theorem State.next_all {limits : Limits} {offset : Nat} {c : Char} {rest : List Char}
    {state : State} {s : Scanned State rest} (h : state.All P)
    (hs : state.next limits offset c rest = .ok s) : s.value.All P := by
  cases state with
  | value frames =>
    unfold State.next at hs
    dsimp only at hs
    split at hs
    · cases hs
      exact complete_all hP (hP.list [] fun v hv => absurd hv List.not_mem_nil)
        (List.forall_mem_cons.1 h).2
    · exact opened_all hP h hs
    · exact opened_all hP h hs
    · split at hs
      · cases hs
      · cases hs
        exact complete_all hP (hP.scalar _ rfl rfl (by simp [Value.kind])) h
    · exact scalar_all hP h hs
  | name entries frames =>
    unfold State.next at hs
    dsimp only at hs
    split at hs
    · split at hs
      · cases hs
      · cases hs
        exact h
    · split at hs
      · cases hs
        exact complete_all hP hP.empty h.2
      · cases hs
  | colon entries name frames =>
    unfold State.next at hs
    dsimp only at hs
    split at hs
    · cases hs
      exact List.forall_mem_cons.2 h
    · cases hs
  | afterElement items frames =>
    unfold State.next at hs
    dsimp only at hs
    split at hs
    · cases hs
      exact complete_all hP (hP.list _ fun v hv => h.1 v (List.mem_reverse.1 hv)) h.2
    · split at hs
      · cases hs
        exact List.forall_mem_cons.2 h
      · cases hs
  | afterMember entries frames =>
    unfold State.next at hs
    dsimp only at hs
    split at hs
    · cases hs
      exact complete_all hP h.1 h.2
    · split at hs
      · cases hs
        exact h
      · cases hs
  | done v => cases hs

/-- It holds of what is read on from a state, if it does of what the state holds. -/
theorem readFrom_all {limits : Limits} {state : State} {offset : Nat} {cs : List Char} {v : Value}
    (h : state.All P) (hread : readFrom limits state offset cs = .ok v) : P v := by
  fun_induction readFrom limits state offset cs with
  | case1 state offset =>
    cases state with
    | done w =>
      cases hread
      exact h
    | _ => cases hread
  | case2 state offset c rest _ _ ih => exact ih h hread
  | case3 => cases hread
  | case4 state offset c rest _ _ s hs _ ih => exact ih (State.next_all hP h hs) hread

/-- It holds of what a text spells. -/
theorem read_all {limits : Limits} {text : List Char} {v : Value}
    (h : read limits text = .ok v) : P v := by
  have hstart : (State.value []).All P := fun f hf => absurd hf List.not_mem_nil
  unfold read at h
  split at h
  · cases h
  · exact readFrom_all hP hstart h

end

/-- That keys are texts is kept from part to part. -/
theorem built_named : Built Value.Named where
  scalar v hitems hentries _ := .scalar hitems hentries
  list items h := .sequence rfl h
  empty := .object (by simp) (by simp)
  insert entries name v h hv := by
    cases h with
    | object keys items =>
      have hparts := Entries.forall_mem_insert
        (P := fun key : Value => ∃ s, key = .string s) (Q := Value.Named)
        (fun e he => ⟨keys e he, items e he⟩) ⟨name, rfl⟩ hv
      exact .object (fun e he => (hparts e he).1) fun e he => (hparts e he).2
    | scalar _ hentries => simp [Value.entries?] at hentries
    | sequence hitems => simp [Value.items?] at hitems

/-- That keys are told apart is kept from part to part. -/
theorem built_distinct : Built Value.Distinct where
  scalar v hitems hentries hset := .scalar hitems hentries hset
  list items h := .sequence rfl h
  empty := .object .nil (by simp) (by simp)
  insert entries name v h hv :=
    Entries.distinct_insert h (.scalar rfl rfl (by simp [Value.kind])) hv

end ShapeSchema.Json

namespace ShapeSchema.CommandLine

/-- What holds of every value that a reader puts together holds of documents. -/
theorem documentLoader_all {P : Value → Prop} (hP : Json.Built P) {name : String}
    {contents : Contents} {v : Value} (h : documentLoader name contents = .ok v) : P v := by
  unfold documentLoader at h
  split at h
  · cases h
  · rename_i w hload
    obtain rfl := Except.ok.inj h
    unfold load at hload
    split at hload
    · cases hload
    · split at hload
      · cases hload
      · dsimp only at hload
        split at hload
        · cases hload
        · obtain rfl := Except.ok.inj hload
          exact Json.read_all hP ‹_›

/-- Documents have texts as keys. -/
theorem documentLoader_named {name : String} {contents : Contents} {v : Value}
    (h : documentLoader name contents = .ok v) : v.Named := documentLoader_all Json.built_named h

/-- The objects in documents have no two keys that are alike. -/
theorem documentLoader_distinct {name : String} {contents : Contents} {v : Value}
    (h : documentLoader name contents = .ok v) : v.Distinct :=
  documentLoader_all Json.built_distinct h

end ShapeSchema.CommandLine
