import ShapeSchema.Value.Basic

/-!
# Equality of values

Three relations of growing strictness compare values.

`Value.alike` is how containers compare their keys and elements: numbers and truth values by exact
quantity, lists with lists and tuples with tuples position by position, objects and sets without
regard to any order, and what is not a number, like what is foreign, only with itself.

`Value.equal` differs from it in one place: outside a container, what is not a number is equal to
nothing. `Value.same` asks for the same kind as well, so that a truth value is not the same as a
number; it is the equality of enumerations.

An object is built so that it has no two alike keys, and a set so that it has no two alike elements:
`Value.Distinct` says that a value is so throughout.
-/

namespace ShapeSchema.Value

mutual

/-- Whether containers regard two values as one. -/
def alike : Value → Value → Bool
  | .null, w => w.isNull
  | .boolean b, w => w.quantity? == some (.ofBool b)
  | .integer n, w => w.quantity? == some (.ofInt n)
  | .double x, w =>
    match w with
    | .double y => x.alike y
    | _ =>
      match x.quantity? with
      | some q => w.quantity? == some q
      | none => false
  | .string s, w =>
    match w with
    | .string t => s == t
    | _ => false
  | .octets bs, w =>
    match w with
    | .octets cs => bs == cs
    | _ => false
  | .list items, w =>
    match w with
    | .list others => alikeAll items others
    | _ => false
  | .tuple items, w =>
    match w with
    | .tuple others => alikeAll items others
    | _ => false
  | .object entries, w =>
    match w with
    | .object others => entries.length == others.length && alikeEntries entries others
    | _ => false
  | .set elements, w =>
    match w with
    | .set others => elements.length == others.length && alikeElements elements others
    | _ => false
  | .missing, w =>
    match w with
    | .missing => true
    | _ => false
  | .foreign x, w =>
    match w with
    | .foreign y => x == y
    | _ => false
termination_by structural v => v

/-- Whether two sequences are alike position by position. -/
def alikeAll : List Value → List Value → Bool
  | [], ws => ws.isEmpty
  | v :: vs, ws =>
    match ws with
    | [] => false
    | w :: ws => alike v w && alikeAll vs ws
termination_by structural vs => vs

/-- Whether each entry has one with an alike key among the others, and an alike item there. -/
def alikeEntries : List (Value × Value) → List (Value × Value) → Bool
  | [], _ => true
  | (key, item) :: rest, others =>
    (match others.find? fun e => alike key e.1 with
      | some e => alike item e.2
      | none => false) && alikeEntries rest others
termination_by structural entries => entries

/-- Whether each element has one alike to it among the others. -/
def alikeElements : List Value → List Value → Bool
  | [], _ => true
  | v :: vs, ws => (ws.any fun w => alike v w) && alikeElements vs ws
termination_by structural vs => vs

end

/-- Whether two values are equal. Of the values outside containers, what is not a number is not
even equal to itself. -/
def equal (v w : Value) : Bool := !v.isNaN && alike v w

/-- Whether two values are equal and their kinds have one name. -/
def same (v w : Value) : Bool := v.kind.text == w.kind.text && equal v w

/-- No two keys of an object in the value are alike, and no two elements of a set. -/
inductive Distinct : Value → Prop where
  /-- What is no container has neither keys nor elements. -/
  | scalar {v : Value} (hitems : v.items? = none) (hentries : v.entries? = none)
    (hset : v.kind ≠ .set) : Distinct v
  /-- The elements of a sequence may well be alike. -/
  | sequence {v : Value} {items : List Value} (hitems : v.items? = some items)
    (elements : ∀ item ∈ items, Distinct item) : Distinct v
  /-- The keys of an object are told apart, whatever is under them. -/
  | object {entries : List (Value × Value)}
    (distinct : entries.Pairwise fun e e' => e.1.alike e'.1 = false)
    (keys : ∀ e ∈ entries, Distinct e.1) (items : ∀ e ∈ entries, Distinct e.2) :
    Distinct (.object entries)
  /-- The elements of a set are told apart. -/
  | set {elements : List Value} (distinct : elements.Pairwise fun v w => v.alike w = false)
    (parts : ∀ v ∈ elements, Distinct v) : Distinct (.set elements)

/-- A text is alike to nothing but itself. -/
theorem alike_string_iff (s : String) (w : Value) :
    alike (.string s) w = true ↔ w = .string s := by
  cases w with
  | string t => simpa [alike] using eq_comm
  | _ => simp [alike]

/-- A foreign value is alike to nothing but itself. -/
theorem alike_foreign_iff (x : Foreign) (w : Value) :
    alike (.foreign x) w = true ↔ w = .foreign x := by
  cases w with
  | foreign y => simpa [alike] using eq_comm
  | _ => simp [alike]

end ShapeSchema.Value
