import Mathlib.Data.List.Induction
import MetadataSearch.Proofs.Engine.FileItems

/-!
# Items after any number of changes

An item starts empty. A change sets one attribute, or collects a whole item from pairs. All that matters of
a sequence of changes is which pairs were set since the last collection began (`Item.written`).

**Theorem (`Item.after_changes`).** The names of the item are those that were set, in the order in which
each was set first, and none stands twice. A name has the value that was set last for it, and the attributes
are exactly the current values that have a type.

A change of a collected item is an item collected from more pairs, or from others (`Item.apply_ofList`), so
after any changes the item is the one collected from what was written (`Item.after_eq_ofList`).
-/

namespace MetadataSearch.Item

/-- One attribute is set, or the item is collected anew. -/
inductive Change where
  | set (name : String) (value : RawValue)
  | collect (pairs : List (String × RawValue))

def apply (item : Item) : Change → Item
  | .set name value => item.set name value
  | .collect pairs => ofList pairs

/-- An item that was empty before all changes. -/
def after (changes : List Change) : Item := changes.foldl apply empty

/-- The pairs set since the last collection began, after one more change. -/
def Change.written (earlier : List (String × RawValue)) : Change → List (String × RawValue)
  | .set name value => earlier ++ [(name, value)]
  | .collect pairs => pairs

/-- The pairs that were set since the last collection began, in that order. -/
def written (changes : List Change) : List (String × RawValue) := changes.foldl Change.written []

/-! ## Collected items -/

theorem apply_ofList (pairs : List (String × RawValue)) (change : Change) :
    (ofList pairs).apply change = ofList (change.written pairs) := by
  cases change with
  | set name value => exact set_ofList pairs name value
  | collect others => rfl

theorem foldl_apply_ofList (changes : List Change) (pairs : List (String × RawValue)) :
    changes.foldl apply (ofList pairs) = ofList (changes.foldl Change.written pairs) := by
  induction changes generalizing pairs with
  | nil => rfl
  | cons change changes ih => rw [List.foldl_cons, apply_ofList, ih, List.foldl_cons]

/-- **Changes come to what was written.** -/
theorem after_eq_ofList (changes : List Change) : after changes = ofList (written changes) :=
  foldl_apply_ofList changes []

/-! ## Names -/

theorem names_ofList (pairs : List (String × RawValue)) :
    (ofList pairs).names = (Fields.names pairs).eraseDups := by
  induction pairs using List.reverseRecOn with
  | nil => rfl
  | append_singleton pairs pair ih =>
    have hnames : Fields.names (pairs ++ [pair]) = Fields.names pairs ++ [pair.1] := List.map_append
    rw [← set_ofList, hnames, List.eraseDups_append, ← ih]
    by_cases hmem : pair.1 ∈ Fields.names pairs
    · have hold : [pair.1].removeAll (Fields.names pairs) = [] := by simp [List.removeAll, hmem]
      have hitem : pair.1 ∈ (ofList pairs).names := by rwa [ih, List.mem_eraseDups]
      rw [hold, List.eraseDups_nil, List.append_nil]
      exact Fields.names_set_of_mem hitem
    · have hnew : [pair.1].removeAll (Fields.names pairs) = [pair.1] := by
        simp [List.removeAll, hmem]
      have hitem : pair.1 ∉ (ofList pairs).names := by rwa [ih, List.mem_eraseDups]
      rw [hnew]
      exact Fields.names_set_of_not_mem hitem

/-! ## Attributes -/

/-- The attributes are the values with a type. -/
theorem mem_attributes_iff {item : Item} (h : item.names.Nodup) {name : String} {v : Value} :
    (name, v) ∈ item.attributes ↔ ∃ raw, item.get? name = some raw ∧ raw.classify? = some v := by
  rw [← Option.bind_eq_some_iff, ← find?_attributes h]
  exact ⟨Fields.find?_of_mem (ascending_attributes item), Fields.mem_of_find?⟩

/-- **An item is a map with names in the order of their first setting.** -/
theorem after_changes (changes : List Change) :
    (after changes).names = (Fields.names (written changes)).eraseDups ∧
    (after changes).names.Nodup ∧
    (∀ name value, (after changes).get? name = some value ↔
      ∃ earlier later : Fields RawValue,
        written changes = earlier ++ (name, value) :: later ∧ name ∉ later.names) ∧
    (∀ name, (after changes).get? name = none ↔ name ∉ Fields.names (written changes)) ∧
    (after changes).attributes.Ascending ∧
    ∀ name v, (name, v) ∈ (after changes).attributes ↔
      ∃ raw, (after changes).get? name = some raw ∧ raw.classify? = some v := by
  rw [after_eq_ofList]
  have hnodup : (ofList (written changes)).names.Nodup := names_nodup_ofList _
  refine ⟨names_ofList _, hnodup, fun name value => ?_, fun name => ?_, ascending_attributes _,
    fun name v => mem_attributes_iff hnodup⟩
  · rw [get?_ofList]
    exact Fields.find?_reverse_eq_some_iff
  · rw [← isSome_get?_ofList_iff, Bool.not_eq_true, Option.isSome_eq_false_iff,
      Option.isNone_iff_eq_none]

/-- Setting a name again keeps its place, and collecting forgets what was before. -/
example : (after [.set "z" (.integer 0), .collect [("b", .integer 1), ("a", .integer 2)],
    .set "b" (.integer 3)]).entries = [("b", .integer 3), ("a", .integer 2)] := rfl

end MetadataSearch.Item
