import ShapeSchema.CommandLine.Session

/-!
# The program

Carries a session out: reads the files and the standard input that it asks for, and writes what it
ends with.
-/

namespace ShapeSchema.CommandLine

/-- All octets that are left in a stream. -/
partial def readAll (stream : IO.FS.Stream) (read : ByteArray) : IO ByteArray := do
  let chunk ← stream.read 65536
  if chunk.isEmpty then return read else readAll stream (read ++ chunk)

/-- The error of a system code, which may come negated. -/
def openError? (code : UInt32) : Option OpenError :=
  OpenError.ofNumber? (min code.toNat (-code).toNat)

/-- The error that the system reports, if it is one that the program knows. -/
def systemError? : IO.Error → Option OpenError
  | .noFileOrDirectory _ code _ => openError? code
  | .permissionDenied _ code _ => openError? code
  | .inappropriateType _ code _ => openError? code
  | .invalidArgument _ code _ => openError? code
  | _ => none

/-- The contents of a source. -/
def Source.fetch : Source → IO Contents
  | .standardInput => do
    let octets ← readAll (← IO.getStdin) ByteArray.empty
    return .ok octets.toList
  | .file name => do
    if name.toList.contains '\x00' then return .error .nullInName
    try
      let octets ← IO.FS.readBinFile name
      return .ok octets.toList
    catch e =>
      match systemError? e with
      | some cause => return .error cause
      | none => throw e

/-- Carries a session out. -/
def Session.perform : Session → IO Outcome
  | .ended outcome => return outcome
  | .reading source next => do
    let contents ← source.fetch
    (next contents).perform

end ShapeSchema.CommandLine

open ShapeSchema.CommandLine in
/-- Checks a document against a schema, both read from the places that the arguments name. -/
def main (arguments : List String) : IO UInt32 := do
  let outcome ← (Session.ofArguments arguments).perform
  (← IO.getStdout).putStr outcome.output
  (← IO.getStderr).putStr outcome.errors
  return outcome.exitCode.toUInt32
