import ShapeSchema.Conformance.Answer
import ShapeSchema.Schema.Grammar

/-!
# The descent to what is wrong

The steps of a violation are those by which the check came down to the node that complains, apart
from the field that an object schema declares twice, which is named behind them. `Schema.Descends`
says of such steps that nothing was wrong before them: at each level, what comes first in the data
passes, and only then is a step taken. `Value.SameUpTo` relates two values that may differ only
behind the steps.
-/

namespace ShapeSchema

/-- The steps that a problem puts behind the place where it lies. -/
def Problem.baseSteps : Problem → Location
  | .conflictingKeys base => [.key (.string base)]
  | _ => []

/-- The values are the same but for what comes, at the level of each step, behind that step:
elements at greater indices, and the items of later keys. -/
inductive Value.SameUpTo : Location → Value → Value → Prop where
  /-- Nothing differs. -/
  | same (steps : Location) (v : Value) : SameUpTo steps v v
  /-- The elements behind an index of a list differ, and so may the element there. -/
  | list {before after after' : List Value} {item item' : Value} {steps : Location}
    (hlength : after.length = after'.length) (rest : SameUpTo steps item item') :
    SameUpTo (.index before.length :: steps) (.list (before ++ item :: after))
      (.list (before ++ item' :: after'))
  /-- The elements behind an index of a tuple differ, and so may the element there. -/
  | tuple {before after after' : List Value} {item item' : Value} {steps : Location}
    (hlength : after.length = after'.length) (rest : SameUpTo steps item item') :
    SameUpTo (.index before.length :: steps) (.tuple (before ++ item :: after))
      (.tuple (before ++ item' :: after'))
  /-- The items of the keys behind a key differ, and so may the item there. The keys themselves do
  not. -/
  | object {before after after' : List (Value × Value)} {key item item' : Value} {steps : Location}
    (hkeys : after.map Prod.fst = after'.map Prod.fst) (hkey : key ∉ after.map Prod.fst)
    (rest : SameUpTo steps item item') :
    SameUpTo (.key key :: steps) (.object (before ++ (key, item) :: after))
      (.object (before ++ (key, item') :: after'))

namespace Schema

/-- The element of an array schema that governs a position. What stands before a repeat mark governs
all positions from its own on. -/
def positionNode? (nodes : List Value) (i : Nat) : Option Value :=
  if endsInMark nodes then nodes[min i (nodes.length - 2)]? else nodes[i]?

/-- With so much room, a check on its own has nothing to say of the value. -/
def Passes (strict : Bool) (room : Int) (schema v : Value) : Prop :=
  ∀ start, check strict schema start room v = .nothing

/-- No key that an object schema requires is absent from the data. -/
def Provides (data entries : List (Value × Value)) : Prop :=
  ∀ e ∈ entries, ∀ name, e.1 = .string name → isReserved e.1 = false → isOptional name = false →
    Entries.contains data (.string name) = true

/-- An object schema has nothing to say of an entry of the data: either nothing governs its key and
uncovered keys are not refused, or its item passes against what governs it. -/
def EntryPasses (strict : Bool) (room : Int) (entries : List (Value × Value)) (e : Value × Value) :
    Prop :=
  (governing? Value.isNull entries e.1 = none ∧ strictness entries strict = false) ∨
    ∃ node, governing? Value.isNull entries e.1 = some node ∧ Passes strict (room - 1) node e.2

/-- The steps lead from a schema and a value, held against each other with so much room, down to
parts of both, and at each level nothing is wrong with what comes before the step. -/
inductive Descends (strict : Bool) : Int → Value → Value → Location → Prop where
  /-- The descent ends here. -/
  | here (room : Int) (schema v : Value) : Descends strict room schema v []
  /-- To an element of an array, when all elements before it have passed. -/
  | index {room : Int} {schema v node item : Value} {nodes items : List Value} {i : Nat}
    {steps : Location} (hnodes : schema.items? = some nodes) (hform : form nodes = .array)
    (hitems : v.items? = some items)
    (earlier : ∀ j < i, ∃ node item, positionNode? nodes j = some node ∧ items[j]? = some item ∧
      Passes strict (room - 1) node item)
    (hnode : positionNode? nodes i = some node) (first : v.StepsTo (.index i) item)
    (rest : Descends strict (room - 1) node item steps) :
    Descends strict room schema v (.index i :: steps)
  /-- To the item under a key, when no required key is absent and all entries before it have
  passed. -/
  | key {room : Int} {entries before after : List (Value × Value)} {key item node : Value}
    {steps : Location} (provides : Provides (before ++ (key, item) :: after) entries)
    (earlier : ∀ e ∈ before, EntryPasses strict room entries e)
    (hnode : governing? Value.isNull entries key = some node)
    (rest : Descends strict (room - 1) node item steps) :
    Descends strict room (.object entries) (.object (before ++ (key, item) :: after))
      (.key key :: steps)
  /-- To a key that nothing governs, when no required key is absent and all entries before it have
  passed. -/
  | uncovered {room : Int} {entries before after : List (Value × Value)} {key item : Value}
    (provides : Provides (before ++ (key, item) :: after) entries)
    (earlier : ∀ e ∈ before, EntryPasses strict room entries e)
    (hnone : governing? Value.isNull entries key = none) :
    Descends strict room (.object entries) (.object (before ++ (key, item) :: after)) [.key key]
  /-- To a key that the data do not have. -/
  | absent {room : Int} {entries data : List (Value × Value)} {key : Value}
    (habsent : Entries.contains data key = false) :
    Descends strict room (.object entries) (.object data) [.key key]

end Schema

end ShapeSchema
