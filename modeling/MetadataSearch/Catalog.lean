import MetadataSearch.Json
import MetadataSearch.Tool

/-!
# The catalog of tools

What a client is told of the tools: their names, what they do, which arguments they take, and that
they change nothing. The catalog is published as tool descriptors with a JSON schema of the
arguments, as a short inventory, and as instructions in prose.
-/

namespace MetadataSearch

/-- What a schema says of one argument. -/
structure ArgumentSchema where
  name : String
  description : String
  /-- The type of the argument in the schema. -/
  type : String
  required : Bool
  /-- How the type is to be read more narrowly. -/
  format : Option String

namespace ArgumentSchema

def requiredText (name description : String) : ArgumentSchema :=
  ⟨name, description, "string", true, none⟩

def scope : ArgumentSchema :=
  requiredText "scope" "Absolute path of the directory to search under"

def limit : ArgumentSchema :=
  ⟨"limit", "Maximum number of results (1-1000, default 100)", "integer", false, some "int64"⟩

def since : ArgumentSchema :=
  ⟨"since",
    "ISO-8601 date or date-time; files modified at or after it are returned (default: 7 days ago)",
    "string", false, none⟩

/-- The schema of the argument. An optional one may be null. -/
def toJson (a : ArgumentSchema) : Json :=
  let type : Json :=
    if a.required then .string a.type else .array [.string a.type, .string "null"]
  let format := a.format.toList.map fun text => ("format", Json.string text)
  .ofPairs ([("description", .string a.description), ("type", type)] ++ format)

end ArgumentSchema

namespace Tool

/-- The tools in the order in which they are published. -/
def published : List Tool := [.search, .searchByKind, .recentFiles, .getMetadata]

def summary : Tool → String
  | .search => "Find files under a directory whose content contains the given text."
  | .searchByKind =>
    "Find files of a kind (document, image, video, audio, pdf, code) under a directory."
  | .recentFiles =>
    "Find files under a directory modified since a date (default: last 7 days)."
  | .getMetadata => "Return every metadata attribute of one file."

/-- The name of the schema of the arguments. -/
def schemaTitle : Tool → String
  | .search => "SearchRequest"
  | .searchByKind => "SearchByKindRequest"
  | .recentFiles => "RecentFilesRequest"
  | .getMetadata => "GetMetadataRequest"

def argumentSchemas : Tool → List ArgumentSchema
  | .search =>
    [.requiredText "query" "Text to find in file contents (case- and diacritic-insensitive)",
      .scope, .limit]
  | .searchByKind =>
    [.requiredText "kind"
        "File kind: document, image, video, audio, pdf or code (case-insensitive)",
      .scope, .limit]
  | .recentFiles => [.scope, .since, .limit]
  | .getMetadata => [.requiredText "path" "Absolute path of an existing file or directory"]

/-- The identifier of a draft of the schema language. -/
def schemaDialect (draft : String) : String :=
  "https" ++ "://json-schema.org/draft/" ++ draft ++ "/schema"

/-- The schema of the arguments. -/
def inputSchema (tool : Tool) : Json :=
  let schemas := tool.argumentSchemas
  .ofPairs
    [ ("$schema", .string (schemaDialect "2020-12")),
      ("title", .string tool.schemaTitle),
      ("type", .string "object"),
      ("properties", .ofPairs (schemas.map fun a => (a.name, a.toJson))),
      ("required",
        .array ((schemas.filter ArgumentSchema.required).map fun a => .string a.name)) ]

/-- A tool changes nothing, may be called again, and looks at nothing but this machine. -/
def annotations : Json :=
  .ofPairs
    [ ("readOnlyHint", .bool true), ("destructiveHint", .bool false),
      ("idempotentHint", .bool true), ("openWorldHint", .bool false) ]

def descriptor (tool : Tool) : Json :=
  .ofPairs
    [ ("name", .string tool.name),
      ("description", .string (tool.summary ++
        " Results are JSON; search tools return an array of attribute objects with `_path`.")),
      ("inputSchema", tool.inputSchema),
      ("annotations", annotations) ]

end Tool

namespace Catalog

/-- The descriptors of all tools. -/
def descriptors : Json := .array (Tool.published.map Tool.descriptor)

/-- The names and summaries of all tools. -/
def inventory (version : String) : Json :=
  .ofPairs
    [ ("binary", .string "spotlight-mcp"),
      ("version", .string version),
      ("count", .integer (.ofNat Tool.published.length)),
      ("tools", .array (Tool.published.map fun tool =>
        .ofPairs [("name", .string tool.name), ("summary", .string tool.summary)])) ]

/-- The first lines of the instructions. -/
def preamble : List String :=
  [ "Spotlight MCP searches the local desktop metadata index.",
    "Every search needs an absolute `scope` directory; results are JSON attribute objects keyed by kMDItem* names plus `_path`.",
    "Tools:" ]

def instructions : String :=
  "\n".intercalate (preamble ++ Tool.published.map fun tool =>
    "- " ++ tool.name ++ ": " ++ tool.summary)

end Catalog

end MetadataSearch
