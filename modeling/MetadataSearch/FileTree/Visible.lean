import MetadataSearch.FileTree.Resolution

/-!
# Visible files

The visible files under a scope are the regular files that are reached from it through real
directories, none of whose names below the scope is a text that starts with a dot. Links below the scope
are not followed. The scope itself may be hidden, may be a single file, and may be a link to a directory.
A directory is not opened under a path that is too long.

`FileTree.visibleFiles` lists them depth first, the entries of a directory in their order. Every file
comes with the path that the spelling of the scope gives it. `FileTree.visibleInAll` takes the files
of several scopes one after another and leaves out a path that was listed before, and then those files
whose own path is too long to read them.
-/

namespace MetadataSearch

/-- A file as it was found: the path under which, the content and the dates. -/
structure FoundFile where
  path : Path
  content : List UInt8
  dates : Dates
  deriving DecidableEq

def FoundFile.node (file : FoundFile) : Node := .file file.content file.dates

/-- Names that are texts and start with a dot. A name that is no text is never hidden. -/
def isHidden (name : FileName) : Bool := (Text.decode? name).any fun text => text.head? == some '.'

namespace Node

mutual

/-- The visible files of a node that stands at a path. -/
def visibleFiles (path : Path) : Node → List FoundFile
  | .file content dates => [⟨path, content, dates⟩]
  | .link _ => []
  | .directory _ entries => if Path.isTooLong path then [] else visibleEntries path entries

/-- The visible files of the entries of a directory that stands at a path. -/
def visibleEntries (path : Path) : List (FileName × Node) → List FoundFile
  | [] => []
  | (name, node) :: rest =>
    (if isHidden name then [] else node.visibleFiles (Path.join path name)) ++
      visibleEntries path rest

end

end Node

namespace FileTree

def visibleFiles (t : FileTree) (scope : Path) : List FoundFile :=
  match t.standing? scope with
  | none => []
  | some (.link _) =>
    match t.node? scope with
    | some (.directory _ entries) => Node.visibleEntries scope entries
    | _ => []
  | some node => node.visibleFiles scope

/-- The files of all scopes that can be read, each path once. -/
def visibleInAll (t : FileTree) (scopes : List Path) : List FoundFile :=
  let found := (scopes.flatMap t.visibleFiles).map fun file => (Path.identity file.path, file)
  let files := (found.eraseDupsBy fun a b => a.1 == b.1).map Prod.snd
  files.filter fun file => !Path.isTooLong file.path

end FileTree

end MetadataSearch
