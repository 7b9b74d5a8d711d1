/-!
# Tools

The four tools that a caller may use, by name.
-/

namespace MetadataSearch

inductive Tool where
  /-- Files whose text content holds a text. -/
  | search
  /-- The attributes of one file. -/
  | getMetadata
  /-- Files of a kind. -/
  | searchByKind
  /-- Files modified since a date. -/
  | recentFiles
  deriving DecidableEq

namespace Tool

def all : List Tool := [.search, .getMetadata, .searchByKind, .recentFiles]

def name : Tool → String
  | .search => "search"
  | .getMetadata => "get_metadata"
  | .searchByKind => "search_by_kind"
  | .recentFiles => "recent_files"

def ofName? (name : String) : Option Tool := all.find? fun tool => tool.name == name

end Tool

end MetadataSearch
