import MetadataSearch.FileTree.Edit
import MetadataSearch.FileTree.Resolution

/-!
# Changing what a path leads to

`FileTree.Edit` changes what stands at a location. Here the place of a change is named by a path that
starts at a directory, and the links on the path are followed.

- `FileTree.makeWay?` enters directories step by step and makes those that are missing.
- `FileTree.destination?` follows the links that stand at a location one after another. The last of
  them may lead to a name that is free, so that a file written there is made where the link points.
- A file is written through links, a link is put in place of what stands under its name, and what is
  removed is the link and not its target.
-/

namespace MetadataSearch

namespace Path

/-- The steps that go somewhere. -/
def moves (path : Path) : List Step := (steps path).filter (· != .stay)

/-- The steps before a last step down, and its name. -/
def splitName? (steps : List Step) : Option (List Step × FileName) :=
  match steps.getLast? with
  | some (.down name) => some (steps.dropLast, name)
  | _ => none

end Path

namespace FileTree

open MetadataSearch.Path (Step)

/-! ## The way -/

/-- Where a path starts that is read in a directory. -/
def startIn (directory : Location) (path : Path) : Location :=
  if Path.isAbsolute path then [] else directory

/-- Enters a directory by one step. It is made if its name is free. -/
def enter? (t : FileTree) (made : DirectoryInfo) (here : Location) : Step → Option (FileTree × Location)
  | .stay => some (t, here)
  | .up => some (t, here.dropLast)
  | .down name => do
    let next := here ++ [name]
    if (t.at? next).isNone then return (← t.makeDirectory? made next made, next)
    let there ← t.locate here [.down name]
    if (t.at? there).any Node.isDirectory then return (t, there) else none

/-- Enters directories one after another. -/
def makeWay? (t : FileTree) (made : DirectoryInfo) (here : Location) (steps : List Step) :
    Option (FileTree × Location) :=
  steps.foldlM (fun (t, here) step => t.enter? made here step) (t, here)

/-- The location to which the links lead that stand at a location, if they are at most so many. -/
def destination? (t : FileTree) (links : Nat) (location : Location) : Option Location :=
  match t.at? location, links with
  | some (.link _), 0 => none
  | some (.link target), links + 1 => do
    let (way, name) ← Path.splitName? (Path.moves target)
    let directory ← t.locate (startIn location.dropLast target) way
    t.destination? links (directory ++ [name])
  | _, _ => some location

/-! ## Changes -/

/-- Writes the file to which a path leads. Refuses to write over a directory. -/
def writeFileFrom? (t : FileTree) (made : DirectoryInfo) (here : Location) (path : Path)
    (content : List UInt8) (dates : Dates) : Option FileTree := do
  let (way, name) ← Path.splitName? (Path.moves path)
  let (t, directory) ← t.makeWay? made (startIn here path) way
  let location ← t.destination? linkLimit (directory ++ [name])
  if (t.at? location).any Node.isDirectory then none
  else t.writeFile? made location content dates

/-- Makes a link under a path. A link that stands there is not followed. -/
def makeLinkFrom? (t : FileTree) (made : DirectoryInfo) (here : Location) (path target : Path) :
    Option FileTree := do
  let (way, name) ← Path.splitName? (Path.moves path)
  let (t, directory) ← t.makeWay? made (startIn here path) way
  t.makeLink? made (directory ++ [name]) target

/-- Makes the directory to which a path leads. -/
def makeDirectoryFrom? (t : FileTree) (made : DirectoryInfo) (here : Location) (path : Path)
    (info : DirectoryInfo) : Option FileTree := do
  let (t, directory) ← t.makeWay? made (startIn here path) (Path.moves path)
  t.makeDirectory? made directory info

/-- Takes away what stands under a path. A link that stands there is not followed, and of a path that
leads nowhere nothing is left to take. -/
def removeFrom? (t : FileTree) (here : Location) (path : Path) : Option FileTree := do
  let (way, name) ← Path.splitName? (Path.moves path)
  match t.locate (startIn here path) way with
  | some directory => t.remove? (directory ++ [name])
  | none => some t

end FileTree

end MetadataSearch
