import MetadataSearch.ContentType
import MetadataSearch.Engine
import MetadataSearch.FileTree.Visible
import MetadataSearch.Query.Parser
import MetadataSearch.Text.Utf8

/-!
# Searching a file tree

An engine without an index: it goes through the visible files of the scopes and evaluates the query
on each.

- `Item.ofNode` describes a file or directory by its path, as it is shown, and by what the file tree
  knows of it. The date when it was made is left out where it is not known.
- The text content is no part of that description. It is read only from files whose content type
  conforms to text, only up to a limit, and only if the query refers to it.
-/

namespace MetadataSearch

/-! ## Descriptions -/

def Node.dates? : Node → Option Dates
  | .file _ dates => some dates
  | .directory info _ => some info.dates
  | .link _ => none

/-- The attributes of dates. -/
def Dates.attributes (dates : Dates) : List (String × RawValue) :=
  let created := dates.created.elim [] fun t =>
    [(Attribute.contentCreationDate, .date t), (Attribute.fileCreationDate, .date t)]
  [ (Attribute.contentModificationDate, .date dates.modified),
    (Attribute.fileChangeDate, .date dates.modified) ] ++ created

/-- The size of a node as an attribute. -/
def sizeValue (size : Nat) : RawValue := .integer ((int64? size).getD Int64.maxValue)

/-- The attributes of a node under a path. -/
def Item.ofNode (path : Path) (node : Node) : Item :=
  let name := (Path.fileName? path).elim "" Path.text
  let type := ContentType.ofPath path node.isDirectory
  .ofList <|
    [ (Attribute.path, .string path.text),
      (Attribute.fileName, .string name),
      (Attribute.displayName, .string name),
      (Attribute.fileSize, sizeValue node.size),
      (Attribute.contentType, .string type.identifier),
      (Attribute.contentTypeTree, .array (type.tree.map .string)) ] ++
      node.dates?.elim [] Dates.attributes

namespace FoundFile

def item (file : FoundFile) : Item := .ofNode file.path file.node

/-- Whether the content type conforms to text. -/
def isText (file : FoundFile) : Bool :=
  (ContentType.ofPath file.path false).tree.contains "public.text"

/-- The text of the first bytes of a file that holds text. -/
def text? (limit : Nat) (file : FoundFile) : Option String :=
  if file.isText && limit != 0 then
    some (String.ofList (Text.decodeLossy (file.content.take limit)))
  else none

/-- The attributes on which a query is evaluated: the description and the text content. -/
def source (limit : Nat) (file : FoundFile) : Query.Source := fun name =>
  if name = Attribute.textContent then (file.text? limit).map .string else file.item.get? name

end FoundFile

/-! ## The engine -/

/-- The number of bytes that are read of a file if nothing else is said. -/
def defaultTextLimit : Nat := 4 * 1024 * 1024

/-- The limit that a filter needs: nothing is read for one that does not refer to the text. -/
def neededLimit (limit : Nat) (filter : Query.Filter) : Nat :=
  if filter.references Attribute.textContent then limit else 0

/-- The visible files in scopes on which a filter holds. -/
def FileTree.filesMatching (t : FileTree) (limit : Nat) (filter : Query.Filter)
    (scopes : List Path) : List FoundFile :=
  (t.visibleInAll scopes).filter fun file => filter.eval (file.source (neededLimit limit filter))

/-- The engine over a file tree, with the clock at `now`. -/
def Engine.ofFiles (t : FileTree) (limit : Nat) (now : Instant) : Engine where
  name := "filesystem"
  prepare query :=
    match Query.parse now query with
    | .error e => .error (.invalidQuery e.message)
    | .ok filter => .ok fun scopes =>
      .ok ((t.filesMatching limit filter scopes).map fun file => some file.item)
  itemAt? path := (t.node? path).map (Item.ofNode path)

end MetadataSearch
