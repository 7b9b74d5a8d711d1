import MetadataSearch.Engine.Index
import MetadataSearch.Search

/-!
# Found paths on demand

The index is asked for a path only when something of its item is wanted, and then once: what `list` said
is kept for everything else that is wanted of the item.

- `FoundPath` is a found path with what was kept of it, and `FoundPath.load` is where `list` is started.
- `FoundPath.result?` is all that a search wants of a found path: the attribute that holds the path and,
  if that is a text, every attribute.
- `IndexPrograms.search` is a search over the index. It notes what the two programs are started with.
-/

namespace MetadataSearch

/-- A found path, and its item once that was loaded. -/
structure FoundPath where
  path : Path
  item? : Option Item

/-- What a program is started with. -/
inductive ProgramStart where
  | find (arguments : List ProgramArgument)
  | list (path : Path)
  deriving DecidableEq

namespace FoundPath

/-- Something that is wanted of a found path, for which `list` may be started. -/
abbrev Reading (α : Type) := StateM (FoundPath × List ProgramStart) α

def load (programs : IndexPrograms) : Reading Item := fun (found, starts) =>
  match found.item? with
  | some item => (item, found, starts)
  | none =>
    let item := programs.foundItem found.path
    (item, { found with item? := some item }, starts ++ [.list found.path])

def attribute? (programs : IndexPrograms) (name : String) : Reading (Option RawValue) := do
  return (← load programs).get? name

def names (programs : IndexPrograms) : Reading (List String) := do
  return (← load programs).names

/-- Adds the attribute of a name, if it has a type. -/
def addTyped (programs : IndexPrograms) (attributes : Attributes) (name : String) :
    Reading Attributes := do
  let value? := (← attribute? programs name).bind RawValue.classify?
  return value?.elim attributes fun v => Fields.insert name v attributes

/-- The typed attributes, asked for one after another. -/
def attributes (programs : IndexPrograms) : Reading Attributes := do
  (← names programs).foldlM (addTyped programs) []

/-- The result that a found path gives, if the attribute that holds the path is a text. -/
def result? (programs : IndexPrograms) : Reading (Option SearchResult) := do
  match (← attribute? programs Attribute.path).bind RawValue.asString? with
  | some path => return some ⟨path, ← attributes programs⟩
  | none => return none

end FoundPath

namespace IndexPrograms

/-- The results of found paths up to a cap, and what the programs are started with for them. -/
def collect (programs : IndexPrograms) :
    (cap : Option Nat) → List Path → List SearchResult × List ProgramStart
  | some 0, _ => ([], [])
  | _, [] => ([], [])
  | cap, path :: paths =>
    let (found?, _, starts) := FoundPath.result? programs (⟨path, none⟩, [])
    match found? with
    | some result =>
      let (results, more) := programs.collect (cap.map (· - 1)) paths
      (result :: results, starts ++ more)
    | none =>
      let (results, more) := programs.collect cap paths
      (results, starts ++ more)

/-- Runs a query over scopes. -/
def search (programs : IndexPrograms) (query : String) (scopes : List Path) (cap : Option Nat) :
    Except SearchError (List SearchResult) × List ProgramStart :=
  if scopes.isEmpty then (.error .emptyScope, [])
  else
    let started := ProgramStart.find (arguments query scopes)
    match programs.findPaths query scopes with
    | .error e => (.error (.failed e), [started])
    | .ok paths =>
      let (results, starts) := programs.collect cap paths
      (.ok results, started :: starts)

end IndexPrograms

end MetadataSearch
