import MetadataSearch.Proofs.Search.FileResults
import MetadataSearch.Proofs.Tool.ResultObjects

/-!
# Reading answers

What a client reads out of an answer about files: the text of attributes and of results is decoded to
the attributes themselves, with every date as text (`decode_ofAttributes`, `decode_ofResults`). So the
path under which a result stands is the path of that result (`member?_withPath`).
-/

namespace MetadataSearch

/-- The value under a name, in a map. -/
def Value.member? (name : String) : Value → Option Value
  | .map entries => Fields.find? name entries
  | _ => none

/-- Attributes that a text of them keeps. -/
structure Attributes.Plain (attributes : Attributes) : Prop where
  ascending : attributes.Ascending
  plain : ∀ field ∈ attributes, field.2.Plain

theorem Item.attributes_plain_ofNode (path : Path) (node : Node) :
    Attributes.Plain (ofNode path node).attributes where
  ascending := ascending_attributes _
  plain _ h := plain_ofNode h

theorem FoundFile.plain_result (file : FoundFile) : file.result.attributes.Plain := by
  rw [FoundFile.attributes_result]
  exact Item.attributes_plain_ofNode file.path file.node

namespace Value

theorem itemsDatesAsText_eq_map (items : List Value) :
    itemsDatesAsText items = items.map datesAsText := by
  induction items with
  | nil => rfl
  | cons v items ih => rw [itemsDatesAsText, ih, List.map_cons]

theorem find?_entriesDatesAsText (entries : Fields Value) (name : String) :
    Fields.find? name (entriesDatesAsText entries) = (entries.find? name).map datesAsText := by
  induction entries with
  | nil => rfl
  | cons entry rest ih =>
    obtain ⟨n, v⟩ := entry
    rw [entriesDatesAsText, Fields.find?, Fields.find?]
    by_cases hn : n = name
    · rw [if_pos hn, if_pos hn]
      rfl
    · rw [if_neg hn, if_neg hn]
      exact ih

/-! ## Maps of plain values -/

theorem map_of_forall_plain {entries : List (String × Value)} (h : ∀ entry ∈ entries, entry.2.Plain) :
    NoRealEntries entries ∧ EveryMapOfEntries Text.Ascend entries ∧ entriesDepth entries ≤ 1 := by
  induction entries with
  | nil => exact ⟨trivial, trivial, Nat.zero_le _⟩
  | cons entry rest ih =>
    obtain ⟨name, v⟩ := entry
    have hv : v.Plain := h (name, v) List.mem_cons_self
    obtain ⟨hreal, hmaps, hdepth⟩ := ih fun entry hmem => h entry (List.mem_cons_of_mem _ hmem)
    exact ⟨⟨hv.noReal, hreal⟩, ⟨hv.everyMap, hmaps⟩, Nat.max_le.2 ⟨hv.depth_le, hdepth⟩⟩

theorem list_of_forall_map {tables : List Attributes} (h : ∀ table ∈ tables, table.Plain) :
    NoRealItems (tables.map .map) ∧ EveryMapOfItems Text.Ascend (tables.map .map) ∧
      itemsDepth (tables.map .map) ≤ 2 := by
  induction tables with
  | nil => exact ⟨trivial, trivial, Nat.zero_le _⟩
  | cons table rest ih =>
    have htable := h table List.mem_cons_self
    obtain ⟨hreal, hmaps, hdepth⟩ := map_of_forall_plain htable.plain
    obtain ⟨hreals, hallMaps, hdepths⟩ := ih fun table hmem => h table (List.mem_cons_of_mem _ hmem)
    refine ⟨⟨hreal, hreals⟩, ⟨⟨htable.ascending, hmaps⟩, hallMaps⟩, Nat.max_le.2 ⟨?_, hdepths⟩⟩
    rw [depth]
    omega

end Value

theorem Attributes.Plain.everyMap {attributes : Attributes} (h : attributes.Plain) :
    (Value.map attributes).EveryMap Text.Ascend :=
  ⟨h.ascending, (Value.map_of_forall_plain h.plain).2.1⟩

namespace Answer

/-! ## Decoded answers -/

theorem decode_ofAttributes {attributes : Attributes} (h : attributes.Plain) :
    Value.decode (ofAttributes attributes) = .ok (.map (Value.entriesDatesAsText attributes)) := by
  obtain ⟨hreal, hmaps, hdepth⟩ := Value.map_of_forall_plain h.plain
  refine Value.decode_of_noReal (v := .map attributes) hreal ⟨h.ascending, hmaps⟩ ?_
  rw [Value.depth, Json.depthLimit]
  omega

theorem plain_withPath {result : SearchResult} (h : result.attributes.Plain) :
    (withPath result).Plain where
  ascending := Fields.ascending_insert h.ascending
  plain field hfield := by
    rcases Fields.mem_of_mem_insert hfield with rfl | hfield
    · exact Value.plain_text result.path
    · exact h.plain field hfield

theorem decode_ofResults {results : List SearchResult}
    (h : ∀ result ∈ results, result.attributes.Plain) :
    Value.decode (ofResults results) =
      .ok (.list (results.map fun result => .map (Value.entriesDatesAsText (withPath result)))) := by
  have htables : ∀ table ∈ results.map withPath, table.Plain := by
    intro table hmem
    obtain ⟨result, hresult, rfl⟩ := List.mem_map.1 hmem
    exact plain_withPath (h result hresult)
  obtain ⟨hreal, hmaps, hdepth⟩ := Value.list_of_forall_map htables
  rw [List.map_map] at hreal hmaps hdepth
  have hdecode := Value.decode_of_noReal
    (v := .list (results.map fun result => .map (withPath result))) hreal hmaps (by
      rw [Value.depth, Json.depthLimit]
      have : Value.itemsDepth (results.map fun result => .map (withPath result)) ≤ 2 := hdepth
      omega)
  rw [ofResults_eq_encode fun result hresult => (h result hresult).everyMap, hdecode, Value.datesAsText,
    Value.itemsDatesAsText_eq_map, List.map_map]
  rfl

/-- A result stands in an answer under its own path. -/
theorem member?_withPath (result : SearchResult) :
    (Value.map (Value.entriesDatesAsText (withPath result))).member? pathName =
      some (.text result.path) := by
  rw [Value.member?, Value.find?_entriesDatesAsText, withPath, Fields.find?_insert, if_pos rfl]
  rfl

end Answer

end MetadataSearch
