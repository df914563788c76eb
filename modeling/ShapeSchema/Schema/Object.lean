import ShapeSchema.Verdict
import ShapeSchema.Value.Entries

/-!
# Object schemas

The entries of an object schema declare fields. A key that ends in a question mark declares an
optional field of the name before it, and two keys are reserved: one holds the schema of every key
that no field covers, the other says whether the object may have keys that nothing covers.

`Schema.governing?` finds what covers a key of the data: the field of that very name, else the
optional field of that name, else the schema for uncovered keys. `Schema.objectVerdict` says whether
the declarations themselves are sound.
-/

namespace ShapeSchema.Schema

/-- The reserved key under which the schema for uncovered keys stands. -/
def anyKey : String := "_any"

/-- The reserved key that says whether uncovered keys are refused. -/
def strictKey : String := "_strict"

/-- Whether a key declares no field. -/
def isReserved : Value → Bool
  | .string s => s == anyKey || s == strictKey
  | _ => false

/-- The name of the optional field that a text declares: what stands before a last question
mark. -/
def optionalBase? (s : String) : Option String :=
  if s.toList.getLast? = some '?' then some (String.ofList s.toList.dropLast) else none

/-- Whether a text declares an optional field. -/
def isOptional (s : String) : Bool := (optionalBase? s).isSome

/-- The key that declares a field of the given name as optional. -/
def optionalKey (name : String) : String := name ++ "?"

/-- The text of a key. Any other key cannot be read as a declaration. -/
def keyText : Value → Except Fault String
  | .string s => .ok s
  | key => .error (.keyNotText key)

variable {α : Type}

/-- The keys that an object has to have, in the order of their declarations. -/
def requiredKeys : List (Value × α) → Except Fault (List String)
  | [] => .ok []
  | (key, _) :: rest =>
    if isReserved key then requiredKeys rest
    else
      match keyText key, requiredKeys rest with
      | .error fault, _ => .error fault
      | .ok _, .error fault => .error fault
      | .ok s, .ok required => .ok (if isOptional s then required else s :: required)

/-- What a field declares for a key of the data: the field of that name, or else the optional
field of that name. Reserved keys name no field. -/
def field? (entries : List (Value × α)) (key : Value) : Option α :=
  if isReserved key then none
  else
    match Entries.get? entries key with
    | some item => some item
    | none =>
      match key with
      | .string s => Entries.get? entries (.string (optionalKey s))
      | _ => none

/-- What governs a key of the data: its field, or else what stands for uncovered keys, unless that
is absent. -/
def governing? (isAbsent : α → Bool) (entries : List (Value × α)) (key : Value) : Option α :=
  match field? entries key with
  | some item => some item
  | none => (Entries.get? entries (.string anyKey)).filter fun item => !isAbsent item

/-- The name of the field that a key declares. -/
def fieldName : Value → Value
  | .string s => .string ((optionalBase? s).getD s)
  | key => key

/-- The first key in order that is not a text, or that declares a field again as optional. -/
def keyVerdict (entries : List (Value × α)) : Verdict :=
  Verdict.forEach (fun e =>
    match keyText e.1 with
    | .error fault => .faults fault
    | .ok s =>
      match optionalBase? s with
      | none => .conforms
      | some base =>
        if Entries.contains entries (.string base) then
          .violates ⟨[.key (.string base)], .conflictingKeys base⟩
        else .conforms) entries

/-- Whether the declared strictness, if any, is a truth value. -/
def strictnessVerdict (entries : List (Value × Value)) : Verdict :=
  match Entries.get? entries (.string strictKey) with
  | none => .conforms
  | some .null => .conforms
  | some (.boolean _) => .conforms
  | some v => .problem (.invalidStrictness v.display)

/-- Whether the declarations of an object schema are sound: its keys first, then its
strictness. -/
def objectVerdict (entries : List (Value × Value)) : Verdict :=
  (keyVerdict entries).andThen fun _ => strictnessVerdict entries

/-- Whether an object refuses keys that nothing covers: as it declares, or else as the caller
says. -/
def strictness (entries : List (Value × Value)) (default : Bool) : Bool :=
  match Entries.get? entries (.string strictKey) with
  | some (.boolean b) => b
  | _ => default

/-- The base of an optional key is the name that the key makes optional. -/
theorem optionalBase?_optionalKey (name : String) :
    optionalBase? (optionalKey name) = some name := by
  simp [optionalBase?, optionalKey]

end ShapeSchema.Schema
