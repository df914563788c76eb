import ShapeSchema.Double.Basic

/-!
# Decoded values

A `Value` is a piece of decoded data, and a schema is written as a value too. There are two kinds
of sequences, lists and tuples, and objects keep their entries in order and may have any value as
a key. Beside the data that a document can hold there are octets, sets, whose elements come in the
order in which the set is gone through, the marker for an array position that the data does not
have, and the values of all other classes, which are `Foreign`.

`Value.kind` is the kind that reports speak of. Only its name is ever compared, and the name of a
foreign class can be that of any kind. `Value.induct` is the induction principle over the elements
of containers.
-/

namespace ShapeSchema

/-- A value of a class that has no form of its own here. It has no parts and is equal to itself
alone, and all that is known of it is what its class is called and how it is written. -/
structure Foreign where
  /-- The name of its class. -/
  className : String
  /-- The value as a text. -/
  text : String
  /-- The value as it is written within a container. -/
  literal : String
  /-- What tells it from the others of its class that are written like it. -/
  identity : Nat
deriving DecidableEq

/-- A decoded value, or a schema. -/
inductive Value where
  /-- The absent value. -/
  | null
  /-- A truth value. -/
  | boolean (b : Bool)
  /-- An integer of any size. -/
  | integer (n : Int)
  /-- A floating-point number. -/
  | double (x : Double)
  /-- A text. -/
  | string (s : String)
  /-- Raw octets. -/
  | octets (bs : List UInt8)
  /-- A sequence. -/
  | list (items : List Value)
  /-- A sequence of the other type, never equal to a list. -/
  | tuple (items : List Value)
  /-- Entries of a key and its item, in order. -/
  | object (entries : List (Value × Value))
  /-- A set. -/
  | set (elements : List Value)
  /-- The marker for an array position that the data does not have. -/
  | missing
  /-- A value of any other class. -/
  | foreign (x : Foreign)

/-- What reports call the kind of a value. Truth values are no numbers, lists and tuples are both
arrays, and a foreign value is of the kind of its class. -/
inductive Kind where
  | null
  | boolean
  | number
  | string
  | array
  | object
  | octets
  | set
  | missing
  | foreign (className : String)
deriving DecidableEq

/-- The name of a kind in reports. -/
def Kind.text : Kind → String
  | .null => "null"
  | .boolean => "boolean"
  | .number => "number"
  | .string => "string"
  | .array => "array"
  | .object => "object"
  | .octets => "bytes"
  | .set => "set"
  | .missing => "undefined"
  | .foreign className => className

namespace Value

/-- The kind of a value. -/
def kind : Value → Kind
  | .null => .null
  | .boolean _ => .boolean
  | .integer _ => .number
  | .double _ => .number
  | .string _ => .string
  | .octets _ => .octets
  | .list _ => .array
  | .tuple _ => .array
  | .object _ => .object
  | .set _ => .set
  | .missing => .missing
  | .foreign x => .foreign x.className

/-- The value is foreign, and its class has the name. -/
def IsForeign (className : String) (v : Value) : Prop :=
  ∃ x : Foreign, v = .foreign x ∧ x.className = className

/-- The name of the type of a value in the messages of failed operations. -/
def typeText : Value → String
  | .null => "NoneType"
  | .boolean _ => "bool"
  | .integer _ => "int"
  | .double _ => "float"
  | .string _ => "str"
  | .octets _ => "bytes"
  | .list _ => "list"
  | .tuple _ => "tuple"
  | .object _ => "dict"
  | .set _ => "set"
  | .missing => "_Undefined"
  | .foreign x => x.className

/-- The elements of a list or tuple. -/
def items? : Value → Option (List Value)
  | .list items => some items
  | .tuple items => some items
  | _ => none

/-- The entries of an object. -/
def entries? : Value → Option (List (Value × Value))
  | .object entries => some entries
  | _ => none

/-- Lists and tuples are sequences. -/
def isSequence (v : Value) : Bool := v.items?.isSome

/-- Objects are mappings from keys to items. -/
def isMapping (v : Value) : Bool := v.entries?.isSome

/-- Lists, tuples and objects are containers. -/
def isContainer (v : Value) : Bool := v.isSequence || v.isMapping

/-- The absent value. -/
def isNull : Value → Bool
  | .null => true
  | _ => false

/-- An integer, or a floating-point number without a fractional part. Truth values are no
integers. -/
def isInteger : Value → Bool
  | .integer _ => true
  | .double x => x.isIntegral
  | _ => false

/-- What is not a number. -/
def isNaN : Value → Bool
  | .double x => x.isNaN
  | _ => false

/-- The exact quantity of a number or a truth value. -/
def quantity? : Value → Option Quantity
  | .boolean b => some (.ofBool b)
  | .integer n => some (.ofInt n)
  | .double x => x.quantity?
  | _ => none

/-- Values that say nothing: absent, false, zero, and the empty texts and containers. A foreign
value always says something. -/
def isVoid : Value → Bool
  | .null => true
  | .boolean b => !b
  | .integer n => n == 0
  | .double x => x.isZero
  | .string s => s.isEmpty
  | .octets bs => bs.isEmpty
  | .list items => items.isEmpty
  | .tuple items => items.isEmpty
  | .object entries => entries.isEmpty
  | .set elements => elements.isEmpty
  | .missing => false
  | .foreign _ => false

/-- The keys of objects are texts, at every depth. -/
inductive Named : Value → Prop where
  /-- What is no container has no keys. -/
  | scalar {v : Value} (hitems : v.items? = none) (hentries : v.entries? = none) : Named v
  /-- The keys in a sequence are those of its elements. -/
  | sequence {v : Value} {items : List Value} (hitems : v.items? = some items)
    (elements : ∀ item ∈ items, Named item) : Named v
  /-- The keys of an object are texts, and so are those of its items. -/
  | object {entries : List (Value × Value)} (keys : ∀ e ∈ entries, ∃ s, e.1 = .string s)
    (items : ∀ e ∈ entries, Named e.2) : Named (.object entries)

/-- A sequence has the kind of an array, and nothing else has. -/
theorem isSequence_iff (v : Value) : v.isSequence = true ↔ v.kind = .array := by
  cases v <;> simp [isSequence, items?, kind]

/-- A mapping has the kind of an object, and nothing else has. -/
theorem isMapping_iff (v : Value) : v.isMapping = true ↔ v.kind = .object := by
  cases v <;> simp [isMapping, entries?, kind]

/-- Induction over a value: a container may assume the statement of its elements, and an object of
its keys and its items. -/
@[elab_as_elim]
theorem induct {motive : Value → Prop}
    (null : motive .null)
    (boolean : ∀ b, motive (.boolean b))
    (integer : ∀ n, motive (.integer n))
    (double : ∀ x, motive (.double x))
    (string : ∀ s, motive (.string s))
    (octets : ∀ bs, motive (.octets bs))
    (list : ∀ items, (∀ v ∈ items, motive v) → motive (.list items))
    (tuple : ∀ items, (∀ v ∈ items, motive v) → motive (.tuple items))
    (object : ∀ entries, (∀ e ∈ entries, motive e.1 ∧ motive e.2) →
      motive (.object entries))
    (set : ∀ elements, (∀ v ∈ elements, motive v) → motive (.set elements))
    (missing : motive .missing)
    (foreign : ∀ x, motive (.foreign x)) (v : Value) : motive v :=
  @Value.rec motive (fun items => ∀ v ∈ items, motive v)
    (fun entries => ∀ e ∈ entries, motive e.1 ∧ motive e.2)
    (fun e => motive e.1 ∧ motive e.2)
    null boolean integer double string octets list tuple object set missing foreign
    (fun _ h => by simp at h)
    (fun v items hv hitems w hw => by
      rcases List.mem_cons.1 hw with rfl | hw
      · exact hv
      · exact hitems w hw)
    (fun _ h => by simp at h)
    (fun e entries he hentries w hw => by
      rcases List.mem_cons.1 hw with rfl | hw
      · exact he
      · exact hentries w hw)
    (fun _ _ hk hv => ⟨hk, hv⟩) v

end Value

end ShapeSchema
