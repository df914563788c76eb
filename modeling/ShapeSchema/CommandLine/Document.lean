import ShapeSchema.Json.Reader
import ShapeSchema.Text.Utf8

/-!
# Documents

A document is what a file or the standard input holds: octets that spell a text, which spells a
value. At each of the three steps a document can turn out to be none.
-/

namespace ShapeSchema.CommandLine

/-- Where a document is read from. -/
inductive Source where
  /-- The standard input. -/
  | standardInput
  /-- The file of a name. -/
  | file (name : String)

/-- The source that an argument names. -/
def Source.ofName (standardInputName name : String) : Source :=
  if name = standardInputName then .standardInput else .file name

/-- Why a file cannot be opened. -/
inductive OpenError where
  /-- The file may not be read. -/
  | permissionDenied
  /-- There is no file of the name. -/
  | notFound
  /-- The name leads through a file as if it were a directory. -/
  | notADirectory
  /-- The name is that of a directory. -/
  | isADirectory
  /-- A part of the name is longer than names may be. -/
  | nameTooLong
  /-- The name holds a null character, which no name may. -/
  | nullInName
deriving DecidableEq

namespace OpenError

/-- The number by which the system tells an error. A name with a null character does not even
reach the system. -/
def number? : OpenError → Option Nat
  | .notFound => some 2
  | .permissionDenied => some 13
  | .notADirectory => some 20
  | .isADirectory => some 21
  | .nameTooLong => some 36
  | .nullInName => none

/-- The wording of an error. -/
def text : OpenError → String
  | .notFound => "No such file or directory"
  | .permissionDenied => "Permission denied"
  | .notADirectory => "Not a directory"
  | .isADirectory => "Is a directory"
  | .nameTooLong => "File name too long"
  | .nullInName => "embedded null byte"

/-- The error of a number. -/
def ofNumber? (n : Nat) : Option OpenError :=
  [.notFound, .permissionDenied, .notADirectory, .isADirectory, .nameTooLong].find? fun e =>
    e.number? = some n

/-- The message of an error about the file of a name. -/
def message (name : String) (e : OpenError) : String :=
  match e.number? with
  | some n => "[Errno " ++ toString n ++ "] " ++ e.text ++ ": " ++ Text.quote name
  | none => e.text

end OpenError

/-- What opening a source gives. -/
abbrev Contents := Except OpenError (List UInt8)

/-- Why a source holds no document. -/
inductive LoadError where
  /-- It cannot be opened. -/
  | unopened (name : String) (e : OpenError)
  /-- Its octets are no text. -/
  | undecodable (fault : Text.Utf8.Fault)
  /-- Its text is no document. -/
  | refused (text : List Char) (refusal : Json.Refusal)

/-- The message of a load error. -/
def LoadError.message : LoadError → String
  | .unopened name e => e.message name
  | .undecodable fault => fault.message
  | .refused text refusal => refusal.message text

/-- The limits under which documents are read. -/
def documentLimits : Json.Limits where
  nesting := 989
  digits := 4300

/-- The value that a source holds, given what opening it gives. -/
def load (name : String) (contents : Contents) : Except LoadError Value :=
  match contents with
  | .error e => .error (.unopened name e)
  | .ok octets =>
    match Text.Utf8.decode octets with
    | .error fault => .error (.undecodable fault)
    | .ok read =>
      let text := Text.unifyLineEnds read
      match Json.read documentLimits text with
      | .error refusal => .error (.refused text refusal)
      | .ok v => .ok v

/-- A way to load sources: the value that the source of a name holds, given what opening it gives,
or else the message of an error. -/
abbrev Loader := String → Contents → Except String Value

/-- Loads documents as they are read from texts. -/
def documentLoader : Loader := fun name contents =>
  match load name contents with
  | .error e => .error e.message
  | .ok v => .ok v

end ShapeSchema.CommandLine
