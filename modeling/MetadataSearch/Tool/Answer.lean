import MetadataSearch.Tool.Error

/-!
# Answers of tools

An answer is a text, marked if it is the message of an error. Attributes and results are written as
compact JSON whose objects have their names in ascending order. Attributes are written as the map that
they are; a result becomes a JSON object first, to which its path is added and which is sorted.
-/

namespace MetadataSearch

structure Answer where
  text : String
  isError : Bool
  deriving DecidableEq

namespace Answer

/-- The name under which a result has its path. -/
def pathName : String := "_path"

/-- The object of attributes. -/
def ofAttributes (attributes : Attributes) : String := (Value.map attributes).encode

/-- The attributes of a result with its path among them. -/
def withPath (result : SearchResult) : Attributes :=
  Fields.insert pathName (.text result.path) result.attributes

/-- The object of a result: its attributes, inserted one after another, and then its path. -/
def resultObject (result : SearchResult) : Json :=
  let members := Fields.ofList (result.attributes.map fun (name, v) => (name, v.toJson))
  (Json.object (Fields.insert pathName (.string result.path) members)).sorted

/-- The array of results. -/
def ofResults (results : List SearchResult) : String :=
  (Json.array (results.map resultObject)).render

def ofOutcome : Except ToolError String → Answer
  | .ok text => ⟨text, false⟩
  | .error e => ⟨e.message, true⟩

end Answer

end MetadataSearch
