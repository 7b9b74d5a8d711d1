import MetadataSearch.FileTree.Containment
import MetadataSearch.Predicate
import MetadataSearch.Search

/-!
# Tool errors

Why a call of a tool is answered with an error. Every error belongs to a category, and its message is
the label of the category followed by the details.
-/

namespace MetadataSearch

namespace ToolError

inductive Category where
  | missingArgument
  | invalidArgument
  | fileNotFound
  | queryFailed
  | unknownTool
  deriving DecidableEq

def Category.label : Category → String
  | .missingArgument => "Missing required argument"
  | .invalidArgument => "Invalid argument"
  | .fileNotFound => "File not found"
  | .queryFailed => "Query failed"
  | .unknownTool => "Unknown tool"

/-- The message of an error of this category. -/
def Category.message (category : Category) (detail : String) : String :=
  category.label ++ ": " ++ detail

end ToolError

/-- What is wrong with an argument that is there. -/
inductive ArgumentFault where
  | empty (name : String)
  | notText (name : String)
  | notAbsolute (name text : String)
  | unknownKind (text : String)
  | unreadableDate (text : String)
  | predicate (fault : Predicate.Fault)
  | path (fault : PathFault)
  deriving DecidableEq

def ArgumentFault.message : ArgumentFault → String
  | .empty name => "'" ++ name ++ "' must not be empty"
  | .notText name => "'" ++ name ++ "' must be a string"
  | .notAbsolute name text => "'" ++ name ++ "' must be an absolute path, got '" ++ text ++ "'"
  | .unknownKind text =>
    "unknown kind '" ++ text ++ "', expected one of: " ++ ", ".intercalate (Kind.all.map Kind.name)
  | .unreadableDate text =>
    "'since' must be an ISO-8601 date (e.g. 2024-01-01T00:00:00Z), got '" ++ text ++ "'"
  | .predicate fault => fault.detail
  | .path fault => fault.message

inductive ToolError where
  | missingArgument (name : String)
  | invalidArgument (fault : ArgumentFault)
  | fileNotFound (path : String)
  | queryFailed (cause : SearchError)
  | unknownTool (name : String)
  deriving DecidableEq

namespace ToolError

def category : ToolError → Category
  | .missingArgument _ => .missingArgument
  | .invalidArgument _ => .invalidArgument
  | .fileNotFound _ => .fileNotFound
  | .queryFailed _ => .queryFailed
  | .unknownTool _ => .unknownTool

def detail : ToolError → String
  | .missingArgument name => name
  | .invalidArgument fault => fault.message
  | .fileNotFound path => path
  | .queryFailed cause => cause.message
  | .unknownTool name => name

def message (e : ToolError) : String := e.category.message e.detail

end ToolError

end MetadataSearch
