import MetadataSearch.Json
import MetadataSearch.Tool.Error

/-!
# Arguments of tools

A call of a tool may carry arguments by name, as JSON values. Null counts as absent. Required texts
and paths have to be there and to be of the right form; an optional argument of the wrong form counts
as absent. A path is given as a text, and is the path that the text spells.
-/

namespace MetadataSearch

structure Arguments where
  fields : Fields Json

namespace Arguments

def none : Arguments := ⟨[]⟩

def get? (arguments : Arguments) (name : String) : Option Json :=
  match Fields.find? name arguments.fields with
  | some .null => .none
  | value => value

/-- A text that is there and not empty. -/
def text (arguments : Arguments) (name : String) : Except ToolError String :=
  match arguments.get? name with
  | .none => .error (.missingArgument name)
  | some (.string text) =>
    if text = "" then .error (.invalidArgument (.empty name)) else .ok text
  | some _ => .error (.invalidArgument (.notText name))

/-- An absolute path, whether or not anything is there. -/
def path (arguments : Arguments) (name : String) : Except ToolError Path := do
  let text ← arguments.text name
  if text.toList.head? = some '/' then return Path.ofText text
  else throw (.invalidArgument (.notAbsolute name text))

/-- The path of the location of an existing directory, given by an absolute path. -/
def scope (arguments : Arguments) (files : FileTree) (name : String) : Except ToolError Path := do
  let path ← arguments.path name
  let location ← (files.scope path).mapError fun fault => .invalidArgument (.path fault)
  return Path.ofLocation location

def text? (arguments : Arguments) (name : String) : Option String :=
  (arguments.get? name).bind Json.asString?

def integer? (arguments : Arguments) (name : String) : Option Int64 :=
  (arguments.get? name).bind Json.asInteger?

end Arguments

end MetadataSearch
