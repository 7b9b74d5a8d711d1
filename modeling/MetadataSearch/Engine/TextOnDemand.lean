import MetadataSearch.Engine.Files

/-!
# Text on demand

While a filter is evaluated on a file, the file is opened for its text only when a comparison asks for the
text, and then once: what was read is kept for the comparisons that follow.

- `Candidate` is a file with what was kept of its text, and `Candidate.readText` is where it is opened.
- `Query.Filter.holds` evaluates a filter on a candidate, and no further than is needed.
- `Engine.onDemand` is the engine that evaluates its filters so. `Engine.readingAll` is the engine that has
  read every text before it evaluates anything.
-/

namespace MetadataSearch

/-- A file, and its text once that was asked for. -/
structure Candidate where
  file : FoundFile
  text? : Option (Option String)

namespace Candidate

/-- Something that is asked of a candidate. It notes the paths of the files that are opened for it. -/
abbrev Reading (α : Type) := StateM (Candidate × List Path) α

def readText (limit : Nat) : Reading (Option String) := fun (candidate, opened) =>
  match candidate.text? with
  | some text? => (text?, candidate, opened)
  | none =>
    let text? := candidate.file.text? limit
    (text?, { candidate with text? := some text? },
      if text?.isSome then opened ++ [candidate.file.path] else opened)

def attribute? (limit : Nat) (name : String) : Reading (Option RawValue) := do
  if name = Attribute.textContent then
    return (← readText limit).map .string
  else
    return (← get).1.file.item.get? name

end Candidate

namespace Query.Filter

def holds (limit : Nat) : Filter → Candidate.Reading Bool
  | .and left right => do
    if ← left.holds limit then right.holds limit else return false
  | .or left right => do
    if ← left.holds limit then return true else right.holds limit
  | .not inner => return !(← inner.holds limit)
  | .compare c => do
    let value? ← Candidate.attribute? limit c.name
    return c.eval fun _ => value?

/-- The files on which the filter holds, and the paths that are opened for that. -/
def select (limit : Nat) (filter : Filter) : List FoundFile → List FoundFile × List Path
  | [] => ([], [])
  | file :: files =>
    let (isHit, _, opened) := filter.holds limit (⟨file, none⟩, [])
    let (hits, more) := filter.select limit files
    (if isHit then file :: hits else hits, opened ++ more)

end Query.Filter

namespace Engine

/-- An engine over a file tree with a selection of its own among the visible files. -/
def selecting (t : FileTree) (now : Instant)
    (select : Query.Filter → List FoundFile → List FoundFile) : Engine where
  name := "filesystem"
  prepare query :=
    match Query.parse now query with
    | .error e => .error (.invalidQuery e.message)
    | .ok filter => .ok fun scopes =>
      .ok ((select filter (t.visibleInAll scopes)).map fun file => some file.item)
  itemAt? path := (t.node? path).map (Item.ofNode path)

def onDemand (t : FileTree) (limit : Nat) (now : Instant) : Engine :=
  selecting t now fun filter files => (filter.select (neededLimit limit filter) files).1

def readingAll (t : FileTree) (limit : Nat) (now : Instant) : Engine :=
  selecting t now fun filter files => files.filter fun file => filter.eval (file.source limit)

end Engine

end MetadataSearch
