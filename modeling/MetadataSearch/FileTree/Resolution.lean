import MetadataSearch.FileTree

/-!
# Where a path leads

A path is read as a list of steps from the root or, if it is relative, from the working directory:
stay, go up, or go down to a name. A step is possible only in a directory. A step down to a link
goes on with the steps of the link's target in place of it. `FileTree.linkLimit` bounds the number
of links that one path may pass, which ends every loop of links; it is the measure on which
`FileTree.follow` recurs.

- `FileTree.location?` is the location to which a path leads, all links followed.
- `FileTree.node?` is what stands at that location. `FileTree.standing?` is what stands at a path, a
  last link not followed. Neither looks anything up under a spelling that is too long.
- `FileTree.canonical?` gives the same location, but looks up every location on the way under its own
  path from the root. It gives up on one whose own path is too long, even if links lead there.
- `FileTree.settle?` is defined for every absolute path. It goes through the path step by step and
  makes what it reached so far canonical, but keeps a name of which that fails.
-/

namespace MetadataSearch

namespace Path

/-! ## Steps -/

inductive Step where
  | stay
  | up
  | down (name : FileName)
  deriving DecidableEq

def Step.ofPart (part : FileName) : Step :=
  if part = [] ∨ part = [dot] then .stay else if part = [dot, dot] then .up else .down part

def steps (path : Path) : List Step := (parts path).map Step.ofPart

/-- The path of a location, with nothing to follow and nothing to leave out. -/
def ofLocation (location : Location) : Path := slash :: [slash].intercalate location

end Path

namespace FileTree

open MetadataSearch.Path (Step)

/-- The number of links that one path may pass. -/
def linkLimit : Nat := 40

/-- Where a path starts. -/
def start (t : FileTree) (path : Path) : Location :=
  if Path.isAbsolute path then [] else t.workingDirectory

/-! ## Following steps -/

/-- Goes through steps from a location, down only to locations in reach. At a link, `onLink` goes on:
it is given the location where the target starts and the steps of the target with those that are
left. A link on the last step is kept if `keepLast`. -/
def walk (t : FileTree) (inReach : Location → Bool) (keepLast : Bool)
    (onLink : Location → List Step → Option Location) (here : Location) :
    List Step → Option Location
  | [] => some here
  | step :: rest =>
    match t.at? here with
    | some (.directory _ entries) =>
      match step with
      | .stay => t.walk inReach keepLast onLink here rest
      | .up => t.walk inReach keepLast onLink here.dropLast rest
      | .down name =>
        if !inReach (here ++ [name]) then none
        else
          match Fields.find? name entries with
          | none => none
          | some (.link target) =>
            if keepLast && rest.isEmpty then some (here ++ [name])
            else onLink (if Path.isAbsolute target then [] else here) (Path.steps target ++ rest)
          | some _ => t.walk inReach keepLast onLink (here ++ [name]) rest
    | _ => none

/-- Goes through steps and passes at most so many links. -/
def follow (t : FileTree) (inReach : Location → Bool) (keepLast : Bool) :
    (links : Nat) → Location → List Step → Option Location
  | 0 => t.walk inReach keepLast fun _ _ => none
  | links + 1 => t.walk inReach keepLast (t.follow inReach keepLast links)

/-- Nothing is out of reach for what goes from directory to directory. -/
def anywhere (_ : Location) : Bool := true

/-- What can be looked up under its own path from the root. -/
def underOwnPath (location : Location) : Bool := !Path.isTooLong (Path.ofLocation location)

/-- The location to which steps lead, all links followed. -/
def locate (t : FileTree) (here : Location) (steps : List Step) : Option Location :=
  t.follow anywhere false linkLimit here steps

/-- The location to which steps lead, if every location on the way can be looked up under its own
path. -/
def locateByPath (t : FileTree) (here : Location) (steps : List Step) : Option Location :=
  t.follow underOwnPath false linkLimit here steps

/-! ## Paths -/

/-- The location to which a path leads, all links followed. An empty path leads nowhere. -/
def location? (t : FileTree) (path : Path) : Option Location :=
  if path = [] then none else t.locate (t.start path) (Path.steps path)

/-- The location to which a path leads, if every location on the way can be looked up under its own
path. -/
def canonical? (t : FileTree) (path : Path) : Option Location :=
  if path = [] then none else t.locateByPath (t.start path) (Path.steps path)

/-- The node to which a path leads. It is no link. -/
def node? (t : FileTree) (path : Path) : Option Node :=
  if Path.isTooLong path then none else (t.location? path).bind t.at?

/-- What stands at a path, a last link not followed. -/
def standing? (t : FileTree) (path : Path) : Option Node :=
  if path = [] ∨ Path.isTooLong path then none
  else (t.follow anywhere true linkLimit (t.start path) (Path.steps path)).bind t.at?

/-! ## Paths that may lead nowhere -/

/-- One step of `settle?`. -/
def settleStep (t : FileTree) (here : Location) : Step → Location
  | .stay => here
  | .up => here.dropLast
  | .down name =>
    let next := here ++ [name]
    (t.locateByPath [] (next.map .down)).getD next

/-- The location of an absolute path, whether or not anything is there. -/
def settle? (t : FileTree) (path : Path) : Option Location :=
  if Path.isAbsolute path then some ((Path.steps path).foldl t.settleStep []) else none

end FileTree

end MetadataSearch
