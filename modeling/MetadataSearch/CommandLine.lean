import MetadataSearch.Catalog
import MetadataSearch.CommandLine.Invocation
import MetadataSearch.Json.Indented

/-!
# The command line

Every command but one calls a tool and prints the text of its answer; `tools` prints the inventory.
The exit code is 0, or 1 if the answer is an error, or 2 if the arguments are no invocation, and then
nothing is printed.
-/

namespace MetadataSearch.CommandLine

/-- What a command leaves behind. -/
structure Outcome where
  code : Nat
  output : String
  deriving DecidableEq

def programName : String := "spotlight"

def version : String := "0.1.0"

/-- An answer as it is printed. -/
def Outcome.ofAnswer (answer : Answer) : Outcome :=
  ⟨if answer.isError then 1 else 0, answer.text ++ "\n"⟩

/-- The arguments of a search in a scope. -/
def scopeArguments (scope : String) (limit : Option Int64) (more : List (String × String)) :
    Arguments :=
  let limitFields := limit.toList.map fun n => ("limit", Json.integer n)
  let textFields := more.map fun (name, text) => (name, Json.string text)
  ⟨Fields.ofList (("scope", .string scope) :: limitFields ++ textFields)⟩

/-- The answer of the tool that a command calls; `none` if it calls none. -/
def Command.answer? (box : Toolbox) : Command → Option Answer
  | .search text scope limit =>
    some (box.call Tool.search.name (scopeArguments scope limit [("query", text)])).1
  | .kind name scope limit =>
    some (box.call Tool.searchByKind.name (scopeArguments scope limit [("kind", name)])).1
  | .recent since scope limit =>
    let given := since.toList.map fun text => ("since", text)
    some (box.call Tool.recentFiles.name (scopeArguments scope limit given)).1
  | .metadata path => some (box.call Tool.getMetadata.name ⟨[("path", .string path)]⟩).1
  | .query raw scope limit => some (box.callRaw raw (Path.ofText scope) limit).1
  | .tools => none

/-- Runs an argument list in an environment. -/
def run (files : FileTree) (programs : IndexPrograms) (now : Instant)
    (environment : Settings.Environment) (arguments : List String) : Outcome :=
  match Invocation.read environment arguments with
  | .error .misuse => ⟨2, ""⟩
  | .error .version => ⟨0, programName ++ " " ++ version ++ "\n"⟩
  | .ok invocation =>
    match invocation.command.answer? (invocation.settings.toolbox files programs now) with
    | some answer => .ofAnswer answer
    | none => ⟨0, (Catalog.inventory version).renderIndented ++ "\n"⟩

end MetadataSearch.CommandLine
