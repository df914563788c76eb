import ShapeSchema.CommandLine.Document

/-!
# A folder of files

A folder holds files by name and nothing else, and it is where a session takes place. A path is
looked up part by part: a single dot stays where it is, two dots lead out of the folder, about which
nothing is known, and only the last part may be a file.
-/

namespace ShapeSchema.CommandLine

/-- Files by name. -/
abbrev Folder := List (String × List UInt8)

namespace Folder

/-- Where a path has led to. -/
inductive Place where
  /-- The folder itself, or one that encloses it at some distance. -/
  | folder (above : Nat)
  /-- A file. -/
  | file (octets : List UInt8)

/-- One part of a path further. -/
def enter (files : Folder) (place : Place) (part : String) : Except OpenError Place :=
  match place with
  | .file _ => .error .notADirectory
  | .folder above =>
    if part = "" ∨ part = "." then .ok (.folder above)
    else if part = ".." then .ok (.folder (above + 1))
    else if 255 < part.utf8ByteSize then .error .nameTooLong
    else if above = 0 then
      match files.lookup part with
      | some octets => .ok (.file octets)
      | none => .error .notFound
    else .error .notFound

/-- The parts of a path one after the other. -/
def follow (files : Folder) (place : Place) : List String → Except OpenError Place
  | [] => .ok place
  | part :: rest =>
    match enter files place part with
    | .ok place => follow files place rest
    | .error e => .error e

/-- The contents of the file of a path. -/
def contents (files : Folder) (path : String) : Contents :=
  if path.toList.contains '\x00' then .error .nullInName
  else if path = "" then .error .notFound
  else
    let start : Place := if path.startsWith "/" then .folder 1 else .folder 0
    match follow files start (path.splitOn "/") with
    | .ok (.file octets) => .ok octets
    | .ok (.folder _) => .error .isADirectory
    | .error e => .error e

end Folder

end ShapeSchema.CommandLine
