import MetadataSearch.Engine

/-!
# Searches

A search runs one query of an engine over scopes and turns handles into results. A handle without an
item, or whose item has no text as its path, is passed over. With a cap the search stops reading
handles once it has that many results.

`Search.run` gives the results together with the calls that it made on the engine.
-/

namespace MetadataSearch

structure SearchResult where
  path : String
  attributes : Attributes

/-- The result of an item that has a text as its path. -/
def SearchResult.ofItem? (item : Item) : Option SearchResult :=
  match item.get? Attribute.path with
  | some (.string path) => some ⟨path, item.attributes⟩
  | _ => none

inductive SearchError where
  /-- There is no scope to search in. -/
  | emptyScope
  | failed (cause : EngineError)
  deriving DecidableEq

/-- The message of a failed search with these details. -/
def SearchError.failedMessage (detail : String) : String := "Query execution failed: " ++ detail

def SearchError.message : SearchError → String
  | .emptyScope => "Search scope is empty"
  | .failed cause => failedMessage cause.message

namespace Search

/-- The results of handles up to a cap, and the number of handles that were read. -/
def collect : (cap : Option Nat) → List (Option Item) → List SearchResult × Nat
  | some 0, _ => ([], 0)
  | _, [] => ([], 0)
  | cap, handle :: handles =>
    match handle.bind SearchResult.ofItem? with
    | some result =>
      let (results, read) := collect (cap.map (· - 1)) handles
      (result :: results, read + 1)
    | none =>
      let (results, read) := collect cap handles
      (results, read + 1)

/-- Runs a query over scopes. -/
def run (engine : Engine) (query : String) (scopes : List Path) (cap : Option Nat) :
    Except SearchError (List SearchResult) × List Engine.Call :=
  if scopes.isEmpty then (.error .emptyScope, [])
  else
    match engine.prepare query with
    | .error e => (.error (.failed e), [.prepare query])
    | .ok execute =>
      match execute scopes with
      | .error e => (.error (.failed e), [.prepare query, .setScopes scopes])
      | .ok handles =>
        let (results, read) := collect cap handles
        (.ok results, .prepare query :: .setScopes scopes :: (List.range read).map .read)

end Search

end MetadataSearch
