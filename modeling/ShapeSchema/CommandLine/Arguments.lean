import ShapeSchema.CommandLine.Usage
import ShapeSchema.Text.Integer

/-!
# The command line

`Arguments.ofList` reads the arguments of a call. Options take effect in the order in which they
stand, so that a request for help is granted if nothing before it is wrong. The two positional
arguments have to stand side by side: once an option comes between, the second one has taken its
default, and another positional argument is one too many.
-/

namespace ShapeSchema.CommandLine

/-- What a call asks for. -/
structure Arguments where
  /-- Where the schema is read from. -/
  schema : String
  /-- Where the document is read from. -/
  document : String
  /-- Whether objects refuse keys that nothing covers. -/
  strict : Bool
  /-- The depth limit; none if it was given without a value. -/
  maxDepth : Option Int
  /-- Whether the log is written. -/
  verbose : Bool

/-- What reading the arguments of a call comes to. -/
inductive Call where
  /-- The help text is asked for. -/
  | help
  /-- A document is to be checked. -/
  | check (arguments : Arguments)
  /-- The call is wrong. -/
  | wrong (e : UsageError)

/-- The name that stands for the standard input. -/
def standardInputName : String := "-"

/-- How far the positional arguments have been read. -/
inductive Phase where
  /-- None yet. -/
  | beforeSchema
  /-- The schema, and nothing since but the mark. -/
  | behindSchema (schema : String)
  /-- Both, and nothing since but the mark. -/
  | behindDocument (schema document : String)
  /-- Both, and something since. -/
  | closed (schema document : String)

/-- The phase behind an option: a document that has not been named takes its default. -/
def Phase.interrupt : Phase → Phase
  | .beforeSchema => .beforeSchema
  | .behindSchema schema => .closed schema standardInputName
  | .behindDocument schema document => .closed schema document
  | .closed schema document => .closed schema document

/-- What has been read so far. -/
structure Progress where
  /-- The positional arguments. -/
  phase : Phase := .beforeSchema
  /-- Whether objects refuse keys that nothing covers. -/
  strict : Bool := true
  /-- The depth limit; none if it was given without a value. -/
  maxDepth : Option Int
  /-- Whether the log is written. -/
  verbose : Bool := false
  /-- What nothing has taken, in reverse. -/
  leftOver : List String := []

namespace Progress

/-- The progress with an argument that nothing takes. -/
def leave (p : Progress) (argument : String) : Progress :=
  { p with leftOver := argument :: p.leftOver }

/-- The mark belongs to a positional argument next to it; elsewhere nothing takes it. -/
def separator (p : Progress) (argument : String) : Progress :=
  match p.phase with
  | .closed _ _ => p.leave argument
  | _ => p

/-- A positional argument. A document that is spelled like the mark is taken for it, which leaves
the default. -/
def positional (p : Progress) (argument : String) : Progress :=
  match p.phase with
  | .beforeSchema => { p with phase := .behindSchema argument }
  | .behindSchema schema =>
    let document := if argument = mark then standardInputName else argument
    { p with phase := .behindDocument schema document }
  | .behindDocument schema document => { p.leave argument with phase := .closed schema document }
  | .closed _ _ => p.leave argument

/-- What all arguments together ask for. -/
def finish (p : Progress) : Call :=
  let check (schema document : String) : Call :=
    if p.leftOver.isEmpty then
      .check ⟨schema, document, p.strict, p.maxDepth, p.verbose⟩
    else .wrong (.unrecognized p.leftOver.reverse)
  match p.phase with
  | .beforeSchema => .wrong .missingSchema
  | .behindSchema schema => check schema standardInputName
  | .behindDocument schema document => check schema document
  | .closed schema document => check schema document

end Progress

/-- The options that one argument holds, and how it ends. -/
inductive Cluster where
  /-- An option without a value, and what follows it in the same argument. -/
  | flag (s : Switch) (rest : Cluster)
  /-- Nothing more. -/
  | done
  /-- An option with its value. -/
  | value (s : Switch) (text : List Char)
  /-- An option whose value is the next argument. -/
  | awaiting (s : Switch)
  /-- A text is attached where none may be. -/
  | wrong (e : UsageError)

/-- An option with nothing attached to it. -/
def Switch.alone (s : Switch) : Cluster := if s.takesValue then .awaiting s else .flag s .done

/-- The options that a short option and the text attached to it hold: unless the text is a value,
each letter of it is a further option without a value. -/
def clusterOf (s : Switch) (text : List Char) : Cluster :=
  if s.takesValue then .value s text
  else
    match text with
    | [] => .wrong (.ignoredText s [])
    | c :: rest =>
      -- The letter is the next option, and what follows it is attached to that one.
      match Switch.ofName? ['-', c] with
      | none => .wrong (.ignoredText s text)
      | some next => .flag s (if rest.isEmpty then next.alone else clusterOf next rest)

/-- The options that an occurrence holds. -/
def Occurrence.cluster (o : Occurrence) : Cluster :=
  match o.attached with
  | none => o.switch.alone
  | some text =>
    if o.long && !o.switch.takesValue then .wrong (.ignoredText o.switch text)
    else clusterOf o.switch text

/-- What is wrong with a cluster, which comes before what its options ask for. -/
def Cluster.error? : Cluster → Option UsageError
  | .flag _ rest => rest.error?
  | .wrong e => some e
  | _ => none

/-- The most digits that a number may have. -/
def mostDigits : Nat := 4300

/-- The progress behind an option with its value. A value that is spelled like the mark is taken
for it, which leaves the option without one. -/
def Progress.setValue (p : Progress) (s : Switch) (text : String) : Except Call Progress :=
  if text = mark then .ok { p with maxDepth := none }
  else
    match Text.readInt? mostDigits text with
    | some n => .ok { p with maxDepth := some n }
    | none => .error (.wrong (.invalidInteger s text))

/-- The progress behind a cluster that is complete in itself. -/
def Progress.apply (p : Progress) : Cluster → Except Call Progress
  | .flag .help _ => .error .help
  | .flag .noStrict rest => Progress.apply { p with strict := false } rest
  | .flag .verbose rest => Progress.apply { p with verbose := true } rest
  | .flag .maxDepth rest => Progress.apply p rest
  | .done => .ok p
  | .value s text => p.setValue s (String.ofList text)
  | .awaiting s => .error (.wrong (.missingValue s))
  | .wrong e => .error (.wrong e)

/-- The option at the end of a cluster that awaits its value. -/
def Cluster.awaiting? : Cluster → Option Switch
  | .flag _ rest => rest.awaiting?
  | .awaiting s => some s
  | _ => none

/-- The cluster with the value that it awaits. -/
def Cluster.supply (text : String) : Cluster → Cluster
  | .flag s rest => .flag s (rest.supply text)
  | .awaiting s => .value s text.toList
  | c => c

/-- Reads on behind the arguments that have been read. -/
def Progress.readOn (p : Progress) : List (String × Role) → Call
  | [] => p.finish
  | (argument, .separator) :: rest => (p.separator argument).readOn rest
  | (argument, .positional) :: rest => (p.positional argument).readOn rest
  | (argument, .unknown) :: rest =>
    Progress.readOn { p.leave argument with phase := p.phase.interrupt } rest
  | (_, .option o) :: rest =>
    let cluster := o.cluster
    let p := { p with phase := p.phase.interrupt }
    -- What is wrong with the argument itself comes before what its options ask for.
    match cluster.error? with
    | some e => .wrong e
    | none =>
      match cluster.awaiting?, rest with
      | some _, (value, .positional) :: more =>
        match p.apply (cluster.supply value) with
        | .ok p => p.readOn more
        | .error call => call
      | some s, _ => .wrong (.missingValue s)
      | none, rest =>
        match p.apply cluster with
        | .ok p => p.readOn rest
        | .error call => call

/-- The roles of all arguments: behind the mark, every argument is positional. -/
def roles : List String → Except UsageError (List (String × Role))
  | [] => .ok []
  | argument :: rest =>
    if argument = mark then .ok ((argument, .separator) :: rest.map fun a => (a, .positional))
    else
      match role argument, roles rest with
      | .error options, _ => .error (.ambiguous argument options)
      | .ok _, .error e => .error e
      | .ok r, .ok rest => .ok ((argument, r) :: rest)

/-- What a call with the given arguments comes to. -/
def Call.ofList (maxDepth : Int) (arguments : List String) : Call :=
  match roles arguments with
  | .error e => .wrong e
  | .ok read => Progress.readOn { maxDepth := some maxDepth } read

end ShapeSchema.CommandLine
