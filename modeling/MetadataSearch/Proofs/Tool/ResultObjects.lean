import MetadataSearch.Proofs.Fields.Lookup
import MetadataSearch.Proofs.Value.RoundTrip
import MetadataSearch.Tool.Answer

/-!
# Two ways to write attributes

**Theorem (`ofResults_encodings`).** The text of results is the text of the list of their attributes, each
with the path under its name. The names of every object in it ascend by bytes, and an object without the
path is the text of the attributes.

Attributes are written as they are. A result goes a longer way: its attributes become JSON, the path is
inserted there, and the object is sorted at every level. As maps keep their names ascending, sorting
changes nothing (`sorted_eq_self`). So the object of a result is the JSON form of its attributes with the
path (`resultObject_eq`), and what is left is that a value and its JSON form have the same text
(`Value.encode_eq_render`).
-/

namespace MetadataSearch

/-! ## Sorting what ascends -/

namespace Json

/-- Ascending members are neither moved by the sort nor by being collected. -/
theorem ofList_mergeSort {fields : Fields Json} (h : fields.Ascending) :
    Fields.ofList (fields.mergeSort fun a b => a.1 ≤ b.1) = fields := by
  have hle : fields.Pairwise fun a b => decide (a.1 ≤ b.1) = true :=
    (List.pairwise_map.1 h).imp fun hlt => decide_eq_true (Std.le_of_lt hlt)
  rw [List.mergeSort_of_pairwise hle, Fields.ofList_eq_self h]

mutual

theorem sorted_eq_self : (j : Json) → j.EveryObject Text.Ascend → j.sorted = j
  | .null, _ => rfl
  | .bool _, _ => rfl
  | .integer _, _ => rfl
  | .real _, _ => rfl
  | .string _, _ => rfl
  | .array items, h => by rw [sorted, sortedItems_eq_self items h]
  | .object fields, h => by rw [sorted, sortedFields_eq_self fields h.2, ofList_mergeSort h.1]

theorem sortedItems_eq_self :
    (items : List Json) → EveryObjectOfItems Text.Ascend items → sortedItems items = items
  | [], _ => rfl
  | item :: items, h => by
    rw [sortedItems, sorted_eq_self item h.1, sortedItems_eq_self items h.2]

theorem sortedFields_eq_self : (fields : List (String × Json)) →
    EveryObjectOfFields Text.Ascend fields → sortedFields fields = fields
  | [], _ => rfl
  | (name, value) :: fields, h => by
    rw [sortedFields, sorted_eq_self value h.1, sortedFields_eq_self fields h.2]

end

/-! ## The text of an array -/

/-- The items of an array stand between commas. -/
theorem intercalate_render (item : Json) (items : List Json) :
    ",".intercalate ((item :: items).map render) = String.ofList (item.write ++ writeItems items) := by
  induction items generalizing item with
  | nil => rw [writeItems, List.append_nil, List.map_singleton, String.intercalate_singleton, render]
  | cons next items ih =>
    have hcomma : "," = String.ofList [','] := rfl
    rw [List.map_cons, String.intercalate_cons_of_ne_nil (by simp), ih next, writeItems, render,
      hcomma, ← String.ofList_append, ← String.ofList_append, List.append_assoc]
    rfl

theorem render_array (items : List Json) :
    (Json.array items).render = "[" ++ ",".intercalate (items.map render) ++ "]" := by
  have hopen : "[" = String.ofList ['['] := rfl
  have hclose : "]" = String.ofList [']'] := rfl
  cases items with
  | nil => rfl
  | cons item items =>
    rw [intercalate_render, hopen, hclose, ← String.ofList_append, ← String.ofList_append, render, write]
    rfl

end Json

namespace Value

/-! ## An entry more -/

theorem itemsToJson_eq_map (items : List Value) : itemsToJson items = items.map toJson := by
  induction items with
  | nil => rfl
  | cons v items ih => rw [itemsToJson, ih, List.map_cons]

theorem entriesToJson_eq_map (entries : List (String × Value)) :
    entriesToJson entries = entries.map fun (name, v) => (name, v.toJson) := by
  induction entries with
  | nil => rfl
  | cons entry entries ih => rw [entriesToJson, ih, List.map_cons]

/-- It does not matter whether an entry is inserted before or after the step to JSON. -/
theorem entriesToJson_insert (name : String) (v : Value) (entries : Fields Value) :
    entriesToJson (entries.insert name v) = Fields.insert name v.toJson (entriesToJson entries) := by
  induction entries with
  | nil => rfl
  | cons entry rest ih =>
    obtain ⟨n, old⟩ := entry
    rw [entriesToJson, Fields.insert, Fields.insert]
    by_cases hlt : name < n
    · rw [if_pos hlt, if_pos hlt]
      rfl
    · rw [if_neg hlt, if_neg hlt]
      by_cases hn : n = name
      · rw [if_pos hn, if_pos hn]
        rfl
      · rw [if_neg hn, if_neg hn, entriesToJson, ih]

theorem everyMapOfEntries_insert {p : List String → Prop} {name : String} {v : Value}
    {entries : Fields Value} (hv : v.EveryMap p) (h : EveryMapOfEntries p entries) :
    EveryMapOfEntries p (entries.insert name v) := by
  induction entries with
  | nil => exact ⟨hv, trivial⟩
  | cons entry rest ih =>
    obtain ⟨n, old⟩ := entry
    rw [Fields.insert]
    by_cases hlt : name < n
    · rw [if_pos hlt]
      exact ⟨hv, h⟩
    · rw [if_neg hlt]
      by_cases hn : n = name
      · rw [if_pos hn]
        exact ⟨hv, h.2⟩
      · rw [if_neg hn]
        exact ⟨h.1, ih h.2⟩

end Value

namespace Answer

variable {result : SearchResult} {results : List SearchResult}

/-! ## Results -/

theorem everyMap_withPath (h : (Value.map result.attributes).EveryMap Text.Ascend) :
    (Value.map (withPath result)).EveryMap Text.Ascend :=
  ⟨Fields.ascending_insert h.1, Value.everyMapOfEntries_insert trivial h.2⟩

/-- **The object of a result is the JSON form of its attributes with the path among them.** -/
theorem resultObject_eq (h : (Value.map result.attributes).EveryMap Text.Ascend) :
    resultObject result = (Value.map (withPath result)).toJson := by
  have hmembers : Fields.ofList (Value.entriesToJson result.attributes) =
      Value.entriesToJson result.attributes := by
    refine Fields.ofList_eq_self ?_
    rw [Fields.Ascending, Value.names_entriesToJson]
    exact h.1
  have hobject : (Value.map (withPath result)).toJson = .object (Fields.insert pathName
      (.string result.path) (Value.entriesToJson result.attributes)) := by
    rw [Value.toJson, withPath, Value.entriesToJson_insert, Value.toJson]
  have hascend := Value.everyObject_toJson _ (everyMap_withPath h)
  rw [resultObject, ← Value.entriesToJson_eq_map, hmembers, ← hobject, Json.sorted_eq_self _ hascend]

theorem map_resultObject
    (h : ∀ result ∈ results, (Value.map result.attributes).EveryMap Text.Ascend) :
    results.map resultObject = results.map fun result => (Value.map (withPath result)).toJson :=
  List.map_congr_left fun result hresult => resultObject_eq (h result hresult)

/-- The text of results is the text of a list of maps. -/
theorem ofResults_eq_encode
    (h : ∀ result ∈ results, (Value.map result.attributes).EveryMap Text.Ascend) :
    ofResults results = (Value.list (results.map fun result => .map (withPath result))).encode := by
  rw [ofResults, map_resultObject h, Value.encode_eq_render, Value.toJson, Value.itemsToJson_eq_map,
    List.map_map]
  rfl

theorem erase_resultObject (h : (Value.map result.attributes).EveryMap Text.Ascend)
    (hnew : pathName ∉ result.attributes.names) :
    ∃ members, resultObject result = .object members ∧
      (Json.object (Fields.erase pathName members)).render = ofAttributes result.attributes := by
  refine ⟨_, resultObject_eq h, ?_⟩
  have hother : ∀ member ∈ Value.entriesToJson result.attributes, member.1 ≠ pathName := by
    intro member hmember heq
    refine hnew ?_
    rw [← Value.names_entriesToJson, ← heq]
    exact List.mem_map_of_mem hmember
  rw [withPath, Value.entriesToJson_insert, Fields.erase_insert hother, ofAttributes,
    Value.encode_eq_render, Value.toJson]

/-- **Results are written as their attributes with the path among them.** Maps keep their entries in
ascending order of names, which is what the hypothesis says at every level. -/
theorem ofResults_encodings
    (h : ∀ result ∈ results, (Value.map result.attributes).EveryMap Text.Ascend) :
    ofResults results =
        "[" ++ ",".intercalate (results.map fun result => (Value.map (withPath result)).encode) ++ "]" ∧
      ∀ result ∈ results,
        (resultObject result).render = (Value.map (withPath result)).encode ∧
          (resultObject result).EveryObject Text.AscendByBytes ∧
          (pathName ∉ result.attributes.names →
            ∃ members, resultObject result = .object members ∧
              (Json.object (Fields.erase pathName members)).render =
                ofAttributes result.attributes) := by
  constructor
  · rw [ofResults, Json.render_array, map_resultObject h, List.map_map]
    simp only [Value.encode_eq_render, Function.comp_def]
  · intro result hresult
    have hmaps := h result hresult
    refine ⟨by rw [resultObject_eq hmaps, Value.encode_eq_render], ?_, erase_resultObject hmaps⟩
    rw [resultObject_eq hmaps]
    exact Json.EveryObject.mono (fun _ hnames => hnames.byBytes) _
      (Value.everyObject_toJson _ (everyMap_withPath hmaps))

/-- Nested collections with doubles that have no decimal form, and an attribute that has the name of the
path. -/
def nestedResult : SearchResult where
  path := "/a \"b\""
  attributes :=
    [("_path", .integer 7), ("é", .list [.real .nan, .map [("m", .timestamp ⟨0, 0⟩),
      ("z", .list [])], .real (.infinite true)])]

def plainResult : SearchResult := ⟨"/c", [("Z", .map []), ("a", .text "\n")]⟩

theorem ofResults_encodings_nested :
    ofResults [nestedResult, plainResult] =
        "[\x7b\"_path\":\"/a \\\"b\\\"\",\"é\":[null,\x7b\"m\":\"1970-01-01T00:00:00Z\",\"z\":[]\x7d," ++
          "null]\x7d,\x7b\"Z\":\x7b\x7d,\"_path\":\"/c\",\"a\":\"\\n\"\x7d]" ∧
      (resultObject nestedResult).EveryObject Text.AscendByBytes ∧
      ∃ members, resultObject plainResult = .object members ∧
        (Json.object (Fields.erase pathName members)).render = ofAttributes plainResult.attributes := by
  have hnested : (Value.map nestedResult.attributes).EveryMap Text.Ascend := by
    simp only [nestedResult, Value.EveryMap, Value.EveryMapOfItems, Value.EveryMapOfEntries, Text.Ascend]
    decide
  have hplain : (Value.map plainResult.attributes).EveryMap Text.Ascend := by
    simp only [plainResult, Value.EveryMap, Value.EveryMapOfEntries, Text.Ascend]
    decide
  have hresults : ∀ result ∈ [nestedResult, plainResult],
      (Value.map result.attributes).EveryMap Text.Ascend :=
    List.forall_mem_cons.2 ⟨hnested, List.forall_mem_singleton.2 hplain⟩
  obtain ⟨htext, hobjects⟩ := ofResults_encodings hresults
  obtain ⟨-, hascend, -⟩ := hobjects nestedResult List.mem_cons_self
  obtain ⟨-, -, herase⟩ := hobjects plainResult (List.mem_cons_of_mem _ List.mem_cons_self)
  exact ⟨htext.trans (by decide +kernel), hascend, herase (by decide)⟩

end Answer

end MetadataSearch
