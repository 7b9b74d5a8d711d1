import MetadataSearch.CommandLine
import MetadataSearch.FileTree.Snapshot
import MetadataSearch.Json.Reader

/-!
# The program

The arguments are those of the command line. Everything else comes from standard input, as one JSON
object: `tree`, the entries of a snapshot below the root; `directory`, the working directory;
`environment`, the values of variables; and `now`, the clock. No index is installed.
-/

namespace MetadataSearch

/-- What a command is run in. -/
structure Surroundings where
  files : FileTree
  environment : Settings.Environment
  now : Instant

namespace Surroundings

/-- The texts among the members of an object. -/
def readEnvironment (j : Option Json) : Settings.Environment := fun name =>
  (j.bind Json.asObject?).bind fun fields => (fields.find? name).bind Json.asString?

def ofJson? (j : Json) : Option Surroundings := do
  let fields ← j.asObject?
  let directory := ((fields.find? "directory").bind Json.asString?).getD "/"
  let entries := match fields.find? "tree" with
    | some (.array entries) => entries
    | _ => []
  let here := Path.segments (Path.ofText directory)
  let way ← Snapshot.directories? Snapshot.defaultInfo here
  let files ← Snapshot.putAll? Snapshot.defaultInfo [] way entries
  return {
    files := { files with workingDirectory := here }
    environment := readEnvironment (fields.find? "environment")
    now := ((fields.find? "now").bind Snapshot.readInstant?).getD Snapshot.defaultDate }

end Surroundings

end MetadataSearch

open MetadataSearch

def main (arguments : List String) : IO UInt32 := do
  let text ← (← IO.getStdin).readToEnd
  match (Json.read? Json.depthLimit text.toList).bind Surroundings.ofJson? with
  | none =>
    IO.eprintln "malformed surroundings"
    return 2
  | some s =>
    let outcome := CommandLine.run s.files .notInstalled s.now s.environment arguments
    IO.print outcome.output
    return .ofNat outcome.code
