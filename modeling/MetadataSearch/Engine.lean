import MetadataSearch.Item
import MetadataSearch.Path

/-!
# Engines

An engine runs queries over scopes and knows items by path. A query is prepared first, which may fail
because the engine does not understand it, and then run over scopes. A run gives one handle per
result, in the engine's order; a handle may turn out to have no item.

`Engine.Call` is what a client does with an engine, one step at a time.
-/

namespace MetadataSearch

inductive EngineError where
  /-- The query is not understood. -/
  | invalidQuery (detail : String)
  /-- The engine cannot be reached. -/
  | unavailable (detail : String)
  | execution (detail : String)
  /-- The operating system refused. No engine of this library fails so by itself. -/
  | io (detail : String)
  deriving DecidableEq

def EngineError.message : EngineError → String
  | .invalidQuery detail => "Invalid query: " ++ detail
  | .unavailable detail => "Engine unavailable: " ++ detail
  | .execution detail => "Execution error: " ++ detail
  | .io detail => "IO error: " ++ detail

/-- A prepared query: what it finds in scopes. -/
abbrev PreparedQuery := List Path → Except EngineError (List (Option Item))

structure Engine where
  name : String
  prepare : String → Except EngineError PreparedQuery
  itemAt? : Path → Option Item

namespace Engine

inductive Call where
  | prepare (query : String)
  | setScopes (scopes : List Path)
  /-- The handle with this index is read. -/
  | read (index : Nat)
  | item (path : Path)
  deriving DecidableEq

end Engine

end MetadataSearch
