import MetadataSearch.FileTree.Resolution

/-!
# Containment

Whether a path leads below a scope, judged on the locations where both settle and not on their
spelling, and whether a scope is an existing directory.

- `FileTree.within` accepts a path at or below one scope.
- `FileTree.withinAny` accepts a path at or below one of several roots; with no roots at all there is
  no fence, and every absolute path is accepted.
- `FileTree.scope` accepts an existing directory.
-/

namespace MetadataSearch

/-- What is wrong with a path. That a directory cannot be listed is no fault here, since everything in a
tree can be read. -/
inductive PathFault where
  | notAbsolute (path : Path)
  | outsideScope (path scope : Path)
  | outsideRoots (path : Path)
  | missingScope (scope : Path)
  | scopeNotDirectory (scope : Path)
  deriving DecidableEq

def PathFault.message : PathFault → String
  | .notAbsolute path => "path must be absolute, got '" ++ path.text ++ "'"
  | .outsideScope path scope => "'" ++ path.text ++ "' is outside of scope '" ++ scope.text ++ "'"
  | .outsideRoots path => "'" ++ path.text ++ "' is outside of the allowed roots"
  | .missingScope scope => "scope '" ++ scope.text ++ "' does not exist"
  | .scopeNotDirectory scope => "scope '" ++ scope.text ++ "' is not a directory"

namespace FileTree

/-- Where an absolute path settles. -/
def settled (t : FileTree) (path : Path) : Except PathFault Location :=
  match t.settle? path with
  | some location => .ok location
  | none => .error (.notAbsolute path)

/-- The location of a path at or below a scope. -/
def within (t : FileTree) (path scope : Path) : Except PathFault Location := do
  let location ← t.settled path
  let fence ← t.settled scope
  if fence.isPrefixOf location then return location else throw (.outsideScope path scope)

/-- The location of a path at or below one of the roots. -/
def withinAny (t : FileTree) (roots : List Path) (path : Path) : Except PathFault Location :=
  if roots.isEmpty then t.settled path
  else
    match roots.findSome? fun root => (t.within path root).toOption with
    | some location => .ok location
    | none => .error (.outsideRoots path)

/-- The location of an existing directory. -/
def scope (t : FileTree) (path : Path) : Except PathFault Location :=
  match t.canonical? path with
  | none => .error (.missingScope path)
  | some location =>
    if (t.at? location).any Node.isDirectory then .ok location else .error (.scopeNotDirectory path)

end FileTree

end MetadataSearch
