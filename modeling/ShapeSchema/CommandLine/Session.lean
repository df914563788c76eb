import ShapeSchema.CommandLine.Arguments
import ShapeSchema.CommandLine.Document
import ShapeSchema.Conformance.Check
import ShapeSchema.Schema.Audit

/-!
# A session of the program

A `Session` says what the program does from one reading to the next: it asks for the contents of a
source and goes on with what it is given, or it ends with an exit code and what it has written.
`Session.ofArguments` is the session of a call. The schema is loaded and audited first; only then
is the document asked for, loaded, and held against the schema. The exit code is 0 if the document
conforms, 1 if it does not, and 2 if it never came to that.

How sources are loaded is a parameter of a session; the program loads documents. `Session.runIn`
runs a session where the files are given by a function, and the standard input can be read once.
-/

namespace ShapeSchema.CommandLine

/-- How a session ends. -/
structure Outcome where
  /-- The exit code. -/
  exitCode : UInt8
  /-- What was written to the standard output. -/
  output : String
  /-- What was written to the standard error. -/
  errors : String
deriving DecidableEq

/-- What the program does next. -/
inductive Session where
  /-- It ends. -/
  | ended (outcome : Outcome)
  /-- It asks for the contents of a source and goes on with them. -/
  | reading (source : Source) (next : Contents → Session)

/-- A line of the log, with its level and the part of the program that wrote it. -/
def logLine (level logger message : String) : String :=
  level ++ " " ++ logger ++ ": " ++ message ++ "\n"

/-- The line of an error of the program itself. -/
def errorLine (message : String) : String := logLine "ERROR" programName message

/-- The line of an entry that a check has left behind. -/
def debugLine (limit : Int) (e : LogEntry) : String :=
  logLine "DEBUG" (programName ++ ".validators") (e.text "" limit)

namespace Outcome

/-- The session has failed before a document could be checked. -/
def failed (message : String) : Outcome := ⟨2, "", errorLine message⟩

/-- Why a session breaks off: a depth cannot be compared with a limit that has no value. -/
def missingLimit : String := "'>' not supported between instances of 'int' and 'list'"

/-- The session breaks off for lack of a limit. -/
def withoutLimit : Outcome := ⟨1, "", "TypeError: " ++ missingLimit ++ "\n"⟩

/-- The session breaks off because a schema cannot be read, with what was logged before. -/
def broken (log : String) (f : Fault) : Outcome := ⟨1, "", log ++ f.message ++ "\n"⟩

/-- The outcome of a run of a document against a schema. -/
def ofRun (arguments : Arguments) (limit : Int) (r : Run) : Outcome :=
  let log := if arguments.verbose then String.join (r.log.map (debugLine limit)) else ""
  match r.verdict with
  | .conforms => ⟨0, "OK\n", log⟩
  | .violates v => ⟨1, "", log ++ v.message "" limit ++ "\n"⟩
  | .faults f => broken log f

/-- The outcome of the audit of a schema that is not sound. -/
def unsound (arguments : Arguments) (message : String) : Outcome :=
  failed ("invalid schema " ++ arguments.schema ++ ": " ++ message)

end Outcome

namespace Session

/-- The session from the document on. -/
def checkDocument (load : Loader) (arguments : Arguments) (limit : Int) (schema : Value) :
    Session :=
  .reading (.ofName standardInputName arguments.document) fun contents =>
    .ended (match load arguments.document contents with
      | .error message =>
        .failed ("cannot load document " ++ arguments.document ++ ": " ++ message)
      | .ok document =>
        .ofRun arguments limit (Schema.run arguments.strict schema limit document))

/-- The session from the loaded schema on. -/
def checkSchema (load : Loader) (arguments : Arguments) (limit : Int) (schema : Value) : Session :=
  match Schema.audit schema limit with
  | .violates v => .ended (.unsound arguments (v.message "" limit))
  | .faults f => .ended (.broken "" f)
  | .conforms => checkDocument load arguments limit schema

/-- The session of a call that asks for a check. -/
def check (load : Loader) (arguments : Arguments) : Session :=
  .reading (.ofName standardInputName arguments.schema) fun contents =>
    match load arguments.schema contents with
    | .error message =>
      .ended (.failed ("cannot load schema " ++ arguments.schema ++ ": " ++ message))
    | .ok schema =>
      match arguments.maxDepth with
      | some limit => checkSchema load arguments limit schema
      | none => .ended .withoutLimit

/-- The session of a call with the given arguments. -/
def ofArguments (arguments : List String) : Session :=
  match Call.ofList Schema.defaultLimit arguments with
  | .help => .ended ⟨0, helpText, ""⟩
  | .wrong e => .ended ⟨2, "", e.message⟩
  | .check arguments => check documentLoader arguments

/-- What the source of a name holds among given files and with the given standard input. -/
def contentsIn (files : String → Contents) (input : List UInt8) (name : String) : Contents :=
  match Source.ofName standardInputName name with
  | .standardInput => .ok input
  | .file name => files name

/-- The outcome of a session among given files, with the rest of the standard input. Once read,
nothing of it is left. -/
def runIn (files : String → Contents) (input : List UInt8) : Session → Outcome
  | .ended outcome => outcome
  | .reading .standardInput next => runIn files [] (next (.ok input))
  | .reading (.file name) next => runIn files input (next (files name))

end Session

end ShapeSchema.CommandLine
