import ShapeSchema.Value.Text

/-!
# Locations

A location is the list of steps that lead from a value to one of its parts: the key of an object,
or the index of a sequence. `Location.path` writes it behind a start path: keys are joined with
dots, and an index stands in brackets. Nothing stands in front of a first key. `Value.LeadsTo`
follows the steps in a value.

A path is meant for people, and keys are written into it as they are. `Step.isPlain` holds of the
steps that can be told in it: a plain key is not empty and has neither of the two signs in it with
which a path goes on.
-/

namespace ShapeSchema

/-- One step into a value. -/
inductive Step where
  /-- To the item under a key. -/
  | key (key : Value)
  /-- To the element at an index. -/
  | index (i : Nat)

/-- The path of the item under a key. -/
def keyPath (path : String) (key : Value) : String :=
  if path.isEmpty then key.display else path ++ "." ++ key.display

/-- The path of the element at an index. -/
def indexPath (path : String) (i : Int) : String :=
  path ++ "[" ++ toString i ++ "]"

/-- The path one step further. -/
def Step.extend (path : String) : Step → String
  | .key k => keyPath path k
  | .index i => indexPath path i

/-- The steps to a part of a value, the outermost first. -/
abbrev Location := List Step

/-- The path of a location behind a start path. -/
def Location.path (start : String) (steps : Location) : String :=
  steps.foldl Step.extend start

/-- The step leads from the first value to the second, which is a part of it. An empty sequence has
a first position too, in which nothing is. -/
inductive Value.StepsTo : Value → Step → Value → Prop where
  /-- To the item of an entry, under its key. -/
  | key {entries : List (Value × Value)} {key item : Value} (mem : (key, item) ∈ entries) :
    StepsTo (.object entries) (.key key) item
  /-- To an element of a list or tuple, at its index. -/
  | index {v item : Value} {items : List Value} {i : Nat} (hitems : v.items? = some items)
    (hitem : items[i]? = some item) : StepsTo v (.index i) item
  /-- To the first position of an empty list or tuple. -/
  | missing {v : Value} (hitems : v.items? = some []) : StepsTo v (.index 0) .missing

/-- The steps lead one after the other from the first value to the second. -/
inductive Value.LeadsTo : Value → Location → Value → Prop where
  /-- Without steps one stays. -/
  | here (v : Value) : LeadsTo v [] v
  /-- A first step, and then the others. -/
  | step {v u w : Value} {s : Step} {steps : Location} (first : v.StepsTo s u)
    (rest : LeadsTo u steps w) : LeadsTo v (s :: steps) w

/-- Steps lead into containers only. -/
theorem Value.StepsTo.isContainer {v u : Value} {s : Step} (h : v.StepsTo s u) :
    v.isContainer = true := by
  cases h with
  | key mem => rfl
  | index hitems _ => simp [Value.isContainer, Value.isSequence, hitems]
  | missing hitems => simp [Value.isContainer, Value.isSequence, hitems]

/-- In what is no container one stays. -/
theorem Value.LeadsTo.of_not_isContainer {v w : Value} {steps : Location} (h : v.LeadsTo steps w)
    (hv : v.isContainer = false) : steps = [] ∧ w = v := by
  cases h with
  | here => exact ⟨rfl, rfl⟩
  | step first rest => simp [first.isContainer] at hv

/-- The key is a text that is not empty, without a dot and without an opening bracket. -/
def Value.isPlainKey : Value → Bool
  | .string s => !s.isEmpty && s.toList.all fun c => c != '.' && c != '['
  | _ => false

/-- The step can be told in a path. An index always can. -/
def Step.isPlain : Step → Bool
  | .key k => k.isPlainKey
  | .index _ => true

/-- The keys of all objects in the value are plain, at whatever depth. -/
def Value.PlainKeyed (v : Value) : Prop :=
  ∀ steps entries, v.LeadsTo steps (.object entries) → ∀ e ∈ entries, e.1.isPlainKey = true

end ShapeSchema
