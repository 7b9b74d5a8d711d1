import MetadataSearch.FileTree.EditByPath
import MetadataSearch.Json.Token
import MetadataSearch.Text.Utf8

/-!
# Snapshots

A file tree as JSON: an array of entries, each an object with a `path` from some base directory and
what stands there. That is a file with its content as `text` or as `hex` digits, which `repeat` may
repeat, a link with its target as `link`, or a directory, marked by `dir`. `mtime` is the date when the
entry was last changed, as seconds and nanoseconds, and `created` the date when it was made. Entries are
put into a tree in their order.
-/

namespace MetadataSearch.Snapshot

/-- The date of everything that has none of its own: the start of 2024. -/
def defaultDate : Instant := ⟨1704067200, 0⟩

/-- What is known of a directory that has nothing of its own. -/
def defaultInfo : DirectoryInfo := ⟨⟨defaultDate, some defaultDate⟩, 4096⟩

def readInstant? : Json → Option Instant
  | .array [.integer seconds, .integer nanos] => some ⟨seconds.toInt, nanos.toInt.toNat⟩
  | _ => none

/-- The bytes of hexadecimal digits, two for each. -/
def readHex? : List Char → Option (List UInt8)
  | [] => some []
  | high :: low :: rest => do
    return (.ofNat ((← Json.hexValue? high) * 16 + (← Json.hexValue? low))) :: (← readHex? rest)
  | _ => none

/-- What an entry puts into a tree. -/
inductive Body where
  | file (content : List UInt8)
  | link (target : Path)
  | directory

def readBody? (fields : Fields Json) : Option Body :=
  let times := (((fields.find? "repeat").bind Json.asInteger?).map fun n => n.toInt.toNat).getD 1
  let repeated (content : List UInt8) : Body := .file (List.replicate times content).flatten
  match fields.find? "text", fields.find? "hex", fields.find? "link", fields.find? "dir" with
  | some (.string text), _, _, _ => some (repeated (Text.encode text.toList))
  | _, some (.string digits), _, _ => (readHex? digits.toList).map repeated
  | _, _, some (.string target), _ => some (.link (Path.ofText target))
  | _, _, _, some (.bool true) => some .directory
  | _, _, _, _ => none

/-- The dates of an entry, where those of `made` stand in for what is left out. -/
def readDates (made : DirectoryInfo) (fields : Fields Json) : Dates where
  modified := ((fields.find? "mtime").bind readInstant?).getD made.dates.modified
  created := ((fields.find? "created").bind readInstant?).orElse fun _ => made.dates.created

/-- The tree with an entry below a base directory. What is made on the way is made as `made` says. -/
def put? (made : DirectoryInfo) (base : Location) (t : FileTree) (entry : Json) : Option FileTree := do
  let fields ← entry.asObject?
  let path := Path.ofText (← (← fields.find? "path").asString?)
  let dates := readDates made fields
  match ← readBody? fields with
  | .file content => t.writeFileFrom? made base path content dates
  | .link target => t.makeLinkFrom? made base path target
  | .directory => t.makeDirectoryFrom? made base path { made with dates := dates }

/-- The tree with entries below a base directory. -/
def putAll? (made : DirectoryInfo) (base : Location) (t : FileTree) (entries : List Json) :
    Option FileTree :=
  entries.foldlM (put? made base) t

/-- A tree that has nothing but a chain of directories. -/
def directories? (made : DirectoryInfo) (location : Location) : Option FileTree :=
  (FileTree.empty made).makeDirectory? made location made

end MetadataSearch.Snapshot
