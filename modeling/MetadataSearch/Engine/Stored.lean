import MetadataSearch.Engine

/-!
# Stored items

An engine over a fixed list of items. It does not look at queries: every query finds all items. It
can be told to have handles without an item in front, to refuse queries, and to fail when one runs.
-/

namespace MetadataSearch

structure StoredItems where
  items : List Item
  /-- The number of handles without an item. -/
  hidden : Nat
  /-- Why queries are refused. -/
  refusal : Option String
  /-- Why running a query fails. -/
  failure : Option EngineError

/-- The engine over stored items. At every path it knows the first item. -/
def Engine.ofStored (stored : StoredItems) : Engine where
  name := "stored"
  prepare _ :=
    match stored.refusal with
    | some detail => .error (.invalidQuery detail)
    | none => .ok fun _ =>
      match stored.failure with
      | some e => .error e
      | none => .ok (List.replicate stored.hidden none ++ stored.items.map some)
  itemAt? _ := stored.items.head?

end MetadataSearch
