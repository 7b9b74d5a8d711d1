import MetadataSearch.Engine
import MetadataSearch.Listing
import MetadataSearch.Text.Occurrence
import MetadataSearch.Text.Utf8

/-!
# Searching the desktop index

An engine that asks the desktop's index through two programs. `find` takes a query and scopes and
prints the paths it finds, each ended by a NUL byte; `list` takes a path and prints a listing of its
attributes. The programs are given as functions from what they are called with to what they print,
so that nothing else is assumed of them.

- `IndexPrograms.item?` is what `list` says of a path.
- A found path of which `list` says nothing still gives an item, which has only the path.
- A query that the index cannot read does not make `find` fail; it is told from what it prints.
-/

namespace MetadataSearch

/-- What a program printed, and whether it ended well. -/
structure ProgramOutput where
  output : List UInt8
  errors : List UInt8
  succeeded : Bool

/-- The bytes that a program is given as an argument. -/
abbrev ProgramArgument := List UInt8

/-- The two programs. They give a reason if they cannot be started. -/
structure IndexPrograms where
  find : (arguments : List ProgramArgument) → Except String ProgramOutput
  list : (path : Path) → Except String ProgramOutput

namespace ProgramOutput

def outputText (p : ProgramOutput) : String := String.ofList (Text.decodeLossy p.output)

/-- The error output without blanks around it. -/
def errorText (p : ProgramOutput) : String := String.ofList (Text.trim (Text.decodeLossy p.errors))

/-- What `find` prints about a query that it cannot read. -/
def unreadableMark : String := "Failed to create query"

/-- Whether a run of `find` failed. -/
def findFailed (p : ProgramOutput) : Bool :=
  !p.succeeded || Text.occursIn unreadableMark.toList (Text.decodeLossy p.errors)

/-- The paths that a run of `find` printed. They are read as texts. -/
def paths (p : ProgramOutput) : List Path :=
  ((p.output.splitOn 0).filter fun chunk => !chunk.isEmpty).map fun chunk =>
    Text.encode (Text.decodeLossy chunk)

end ProgramOutput

namespace IndexPrograms

/-- The arguments of `find`. -/
def arguments (query : String) (scopes : List Path) : List ProgramArgument :=
  let option (text : String) : ProgramArgument := Text.encode text.toList
  option "-0" :: scopes.flatMap (fun scope => [option "-onlyin", scope]) ++
    [Text.encode query.toList]

/-- The paths that a query finds in scopes. -/
def findPaths (programs : IndexPrograms) (query : String) (scopes : List Path) :
    Except EngineError (List Path) :=
  match programs.find (arguments query scopes) with
  | .error reason => .error (.unavailable ("cannot run mdfind: " ++ reason))
  | .ok p => if p.findFailed then .error (.execution p.errorText) else .ok p.paths

/-- An item, with the path set if it has none. -/
def withPath (path : Path) (item : Item) : Item :=
  if (item.get? Attribute.path).isSome then item else item.set Attribute.path (.string path.text)

/-- What `list` says of a path, unless it fails or prints no listing. -/
def item? (programs : IndexPrograms) (path : Path) : Option Item :=
  match programs.list path with
  | .error _ => none
  | .ok p =>
    if p.succeeded then
      (Listing.read p.outputText).toOption.map fun entries => withPath path (.ofList entries)
    else none

/-- The item of a found path. -/
def foundItem (programs : IndexPrograms) (path : Path) : Item :=
  (programs.item? path).getD (Item.empty.set Attribute.path (.string path.text))

/-- Why nothing can be started where the programs are not installed. An argument that cannot be passed
on is noticed first. -/
def startFailure (arguments : List ProgramArgument) : String :=
  if arguments.any fun argument => argument.contains 0 then
    "nul byte found in provided data"
  else "No such file or directory (os error 2)"

/-- The programs where they are not installed. -/
def notInstalled : IndexPrograms where
  find arguments := .error (startFailure arguments)
  list path := .error (startFailure [path])

end IndexPrograms

/-- The engine over the desktop's index. -/
def Engine.ofIndex (programs : IndexPrograms) : Engine where
  name := "mdfind"
  prepare query := .ok fun scopes =>
    (programs.findPaths query scopes).map fun paths => paths.map fun path => some (programs.foundItem path)
  itemAt? := programs.item?

end MetadataSearch
