import ShapeSchema.Value.Equality

/-!
# Entries by key

The entries of an object are a list of keys with what they hold, in order, and no two keys of it
are alike. `Entries.get?` looks a key up, `Entries.insert` keeps the place and the first form of a
key that is already there, and `Entries.ofPairs` inserts pairs one after the other. What a key holds
may be anything, so that the same lookup serves the items of an object and what is derived from
them.
-/

namespace ShapeSchema.Entries

variable {α : Type}

/-- What is held under a key alike to the given one. -/
def get? (entries : List (Value × α)) (key : Value) : Option α :=
  (entries.find? fun e => key.alike e.1).map Prod.snd

/-- Whether there is a key alike to the given one. -/
def contains (entries : List (Value × α)) (key : Value) : Bool :=
  entries.any fun e => key.alike e.1

/-- Puts an item under a key: in the place of the item of an alike key, if there is one, or else
as the last entry. -/
def insert : List (Value × α) → Value → α → List (Value × α)
  | [], key, item => [(key, item)]
  | e :: rest, key, item =>
    if key.alike e.1 then (e.1, item) :: rest else e :: insert rest key item

/-- The entries that inserting pairs one after the other builds. -/
def ofPairs (pairs : List (Value × α)) : List (Value × α) :=
  pairs.foldl (fun entries e => insert entries e.1 e.2) []

/-- A key is contained exactly when something is found under it. -/
theorem contains_eq_isSome_get? (entries : List (Value × α)) (key : Value) :
    contains entries key = (get? entries key).isSome := by
  simp [contains, get?, List.isSome_find?]

/-- What is found is the item of an entry whose key is alike. -/
theorem exists_of_get?_eq_some {entries : List (Value × α)} {key : Value} {item : α}
    (h : get? entries key = some item) : ∃ k, (k, item) ∈ entries ∧ key.alike k = true := by
  simp only [get?, Option.map_eq_some_iff] at h
  obtain ⟨e, he, rfl⟩ := h
  exact ⟨e.1, List.mem_of_find?_eq_some he, by simpa using List.find?_some he⟩

end ShapeSchema.Entries
