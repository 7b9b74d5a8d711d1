import MetadataSearch.Fields
import MetadataSearch.Instant
import MetadataSearch.Path

/-!
# File trees

A file tree is a directory of files, symbolic links and further directories. A directory lists its
entries in strictly ascending order of names, which are compared byte by byte; names are not empty, are
neither `.` nor `..` and hold neither a slash nor a NUL. Links hold a path and may lead anywhere or
nowhere. Everything can be read: a tree has no permissions.

- `Node.WellFormed` states these rules, and `FileTree` carries them.
- A `Location` is the list of names that leads from the root to a node without passing a link;
  `Node.at?` is the node there.
-/

namespace MetadataSearch

/-- When something was last changed and, where the file system keeps that, when it was made. -/
structure Dates where
  modified : Instant
  created : Option Instant
  deriving DecidableEq

/-- What is known of a directory besides its entries. The size is whatever the file system reports. -/
structure DirectoryInfo where
  dates : Dates
  size : Nat
  deriving DecidableEq

/-- What can stand under a name. -/
inductive Node where
  | file (content : List UInt8) (dates : Dates)
  | link (target : Path)
  | directory (info : DirectoryInfo) (entries : List (FileName × Node))

/-- The names from the root to a node. -/
abbrev Location := List FileName

namespace Node

/-! ## Shape -/

/-- The names that an entry may have. -/
def IsName (name : FileName) : Prop :=
  name ≠ [] ∧ name ≠ [Path.dot] ∧ name ≠ [Path.dot, Path.dot] ∧ Path.slash ∉ name ∧ 0 ∉ name

instance (name : FileName) : Decidable (IsName name) := by unfold IsName; infer_instance

mutual

/-- Names are names and ascend, and no link is empty. -/
def WellFormed : Node → Prop
  | .file _ _ => True
  | .link target => target ≠ []
  | .directory _ entries => Fields.Ascending entries ∧ EntriesWellFormed entries

def EntriesWellFormed : List (FileName × Node) → Prop
  | [] => True
  | (name, node) :: rest => IsName name ∧ node.WellFormed ∧ EntriesWellFormed rest

end

theorem entriesWellFormed_iff {entries : List (FileName × Node)} :
    EntriesWellFormed entries ↔ ∀ entry ∈ entries, IsName entry.1 ∧ entry.2.WellFormed := by
  induction entries with
  | nil => simp [EntriesWellFormed]
  | cons entry rest ih => simp [EntriesWellFormed, ih, and_assoc]

/-! ## Access -/

def isDirectory : Node → Bool
  | .directory _ _ => true
  | _ => false

/-- The entries of a directory; nothing else has any. -/
def entries : Node → List (FileName × Node)
  | .directory _ entries => entries
  | _ => []

/-- The length of a file or of a link in bytes, and what is reported as the size of a directory. -/
def size : Node → Nat
  | .file content _ => content.length
  | .link target => target.length
  | .directory info _ => info.size

/-- The node at a location. -/
def at? : Node → Location → Option Node
  | node, [] => some node
  | node, name :: rest => (Fields.find? name node.entries).bind fun child => child.at? rest

end Node

/-- A root directory, and the location of the directory where relative paths start. -/
structure FileTree where
  info : DirectoryInfo
  entries : List (FileName × Node)
  workingDirectory : Location
  wellFormed : (Node.directory info entries).WellFormed

namespace FileTree

def root (t : FileTree) : Node := .directory t.info t.entries

def at? (t : FileTree) (location : Location) : Option Node := t.root.at? location

/-- A tree with nothing in it. -/
def empty (info : DirectoryInfo) : FileTree :=
  ⟨info, [], [], by simp [Node.WellFormed, Node.EntriesWellFormed, Fields.Ascending, Fields.names]⟩

end FileTree

end MetadataSearch
