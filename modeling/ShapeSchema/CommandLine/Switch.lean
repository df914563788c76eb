import ShapeSchema.Text.DecimalDigit

/-!
# Reading arguments one by one

Each argument of a command line is read on its own first: as the mark behind which no options are
looked for, as a positional argument, or as an occurrence of an option. An option may be shortened
as long as only one has a name that starts so, a value may be attached behind an equals sign, and
behind a name of one letter any text may be attached.
-/

namespace ShapeSchema.CommandLine

/-- The options. -/
inductive Switch where
  /-- Asks for the help text. -/
  | help
  /-- Allows keys that nothing covers. -/
  | noStrict
  /-- Sets the depth limit. -/
  | maxDepth
  /-- Asks for the log. -/
  | verbose
deriving DecidableEq

namespace Switch

/-- The names of the options, in the order in which they are listed. -/
def names : List (String × Switch) :=
  [("-h", .help), ("--help", .help), ("--no-strict", .noStrict), ("--max-depth", .maxDepth),
   ("-v", .verbose), ("--verbose", .verbose)]

/-- All names of an option. -/
def title (s : Switch) : String :=
  "/".intercalate ((names.filter fun n => n.2 = s).map Prod.fst)

/-- Whether an option has a value. -/
def takesValue : Switch → Bool
  | .maxDepth => true
  | _ => false

/-- The option of a name. -/
def ofName? (name : List Char) : Option Switch :=
  (names.find? fun n => n.1.toList = name).map Prod.snd

/-- The options whose names start with a text, with those names. -/
def startingWith (text : List Char) : List (String × Switch) :=
  names.filter fun n => text.isPrefixOf n.1.toList

end Switch

/-- An option as it occurs in an argument. -/
structure Occurrence where
  /-- The option. -/
  switch : Switch
  /-- Whether the name starts with two dashes. -/
  long : Bool
  /-- What is attached to the name, without an equals sign in between. -/
  attached : Option (List Char)

/-- The argument behind which no options are looked for. -/
def mark : String := "--"

/-- What an argument is on its own. -/
inductive Role where
  /-- The mark behind which no options are looked for. -/
  | separator
  /-- A positional argument. -/
  | positional
  /-- An occurrence of an option. -/
  | option (o : Occurrence)
  /-- What looks like an option, but is none. -/
  | unknown

/-- The text before the first equals sign, and the text behind it if there is one. -/
def splitEquals (cs : List Char) : List Char × Option (List Char) :=
  match cs.dropWhile (· != '=') with
  | [] => (cs, none)
  | _ :: value => (cs.takeWhile (· != '='), some value)

/-- The ways to read an argument as a shortened name or as a short name with something attached,
each with the full name. -/
def interpretations (cs : List Char) : List (String × Occurrence) :=
  match cs with
  | '-' :: '-' :: _ =>
    let (name, value) := splitEquals cs
    (Switch.startingWith name).map fun n => (n.1, ⟨n.2, true, value⟩)
  | '-' :: letter :: text =>
    (Switch.names.filter fun n => n.1.toList = ['-', letter]).map fun n =>
      (n.1, ⟨n.2, false, some text⟩)
  | _ => []

/-- Decimal digits of any script, and at least one of them. -/
def isDigits (cs : List Char) : Bool := !cs.isEmpty && cs.all Text.isDecimalDigit

/-- Whether what follows a dash is a number with or without a point. One line feed may end it. -/
def isUnsignedNumber (cs : List Char) : Bool :=
  let body := if cs.getLast? = some '\n' then cs.dropLast else cs
  isDigits body ||
    match body.dropWhile Text.isDecimalDigit with
    | '.' :: digits => isDigits digits
    | _ => false

/-- The role of an argument, or the names that it could be short for if there are several. An exact
name comes first, then a name with a value, then shortened names. What is left is positional if it
is a negative number or holds a space. -/
def role (argument : String) : Except (List String) Role :=
  let cs := argument.toList
  match cs with
  | '-' :: second :: tail =>
    let long : Bool := second = '-'
    -- An exact name wins over everything that it could be short for.
    match Switch.ofName? cs with
    | some s => .ok (.option ⟨s, long, none⟩)
    | none =>
      let split := splitEquals cs
      match split.2, Switch.ofName? split.1 with
      | some value, some s => .ok (.option ⟨s, long, some value⟩)
      | _, _ =>
        match interpretations cs with
        | [(_, occurrence)] => .ok (.option occurrence)
        | [] =>
          if isUnsignedNumber (second :: tail) || cs.contains ' ' then .ok .positional
          else .ok .unknown
        | several => .error (several.map Prod.fst)
  | _ => .ok .positional

end ShapeSchema.CommandLine
