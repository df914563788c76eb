import ShapeSchema.CommandLine.Switch
import ShapeSchema.Text.Quoted

/-!
# Usage

The texts that tell how the program is called, and what can be wrong with a call.
-/

namespace ShapeSchema.CommandLine

/-- The name under which the program speaks of itself. -/
def programName : String := "tinyschema"

/-- How the program is called. -/
def usage : String :=
  "usage: tinyschema [-h] [--no-strict] [--max-depth MAX_DEPTH] [-v]\n" ++
  "                  schema [data]\n"

/-- The help text. -/
def helpText : String :=
  usage ++
  "\nValidate a JSON document against a tinyschema schema.\n" ++
  "\npositional arguments:\n" ++
  "  schema                path to the JSON schema file\n" ++
  "  data                  path to the JSON document (default: stdin)\n" ++
  "\noptions:\n" ++
  "  -h, --help            show this help message and exit\n" ++
  "  --no-strict           allow object keys the schema does not mention\n" ++
  "  --max-depth MAX_DEPTH\n" ++
  "                        maximum nesting depth (default: 200)\n" ++
  "  -v, --verbose         enable debug logging\n"

/-- What is wrong with a call. -/
inductive UsageError where
  /-- An argument is short for several options. -/
  | ambiguous (argument : String) (options : List String)
  /-- A text is attached to an option without a value. -/
  | ignoredText (option : Switch) (text : List Char)
  /-- An option lacks its value. -/
  | missingValue (option : Switch)
  /-- The value of an option is no integer. -/
  | invalidInteger (option : Switch) (text : String)
  /-- The schema is not named. -/
  | missingSchema
  /-- There are arguments that nothing takes. -/
  | unrecognized (arguments : List String)

/-- The wording of what is wrong. -/
def UsageError.text : UsageError → String
  | .ambiguous argument options =>
    "ambiguous option: " ++ argument ++ " could match " ++ ", ".intercalate options
  | .ignoredText option text =>
    "argument " ++ option.title ++ ": ignored explicit argument " ++
      Text.quote (String.ofList text)
  | .missingValue option => "argument " ++ option.title ++ ": expected one argument"
  | .invalidInteger option text =>
    "argument " ++ option.title ++ ": invalid int value: " ++ Text.quote text
  | .missingSchema => "the following arguments are required: schema"
  | .unrecognized arguments => "unrecognized arguments: " ++ " ".intercalate arguments

/-- The message of a usage error: how the program is called, and what is wrong. -/
def UsageError.message (e : UsageError) : String :=
  usage ++ programName ++ ": error: " ++ e.text ++ "\n"

end ShapeSchema.CommandLine
