import MetadataSearch.Engine.Files
import MetadataSearch.Proofs.Fields.Lookup
import MetadataSearch.Proofs.Value.RoundTrip

/-!
# Attributes of files

The attributes of an item are its raw values, typed and sorted. As no name of an item stands twice,
each attribute is the type of the raw value of that name (`Item.find?_attributes`).

**Theorem (`Item.plain_ofNode`).** What the file engine says of a file has no doubles and no maps,
and its lists are flat. `Value.Plain` is what this leaves of the conditions for a round trip.
-/

namespace MetadataSearch

/-- Without doubles, with ascending names, and nested at most once. -/
structure Value.Plain (v : Value) : Prop where
  noReal : v.NoReal
  everyMap : v.EveryMap Text.Ascend
  depth_le : v.depth ≤ 1

/-- The attributes of files that are dates. -/
def Attribute.dates : List String :=
  [contentModificationDate, fileChangeDate, contentCreationDate, fileCreationDate]

/-- The attributes of files that are no dates. -/
def Attribute.others : List String :=
  [path, fileName, displayName, fileSize, contentType, contentTypeTree]

theorem Dates.mem_attributes {dates : Dates} {entry : String × RawValue} (h : entry ∈ dates.attributes) :
    entry.1 ∈ Attribute.dates ∧ ∃ t, entry.2 = .date t := by
  rcases List.mem_append.1 h with h | h
  · simp only [List.mem_cons, List.not_mem_nil, or_false] at h
    rcases h with rfl | rfl
    · exact ⟨by simp [Attribute.dates], _, rfl⟩
    · exact ⟨by simp [Attribute.dates], _, rfl⟩
  · cases hcreated : dates.created with
    | none =>
      rw [hcreated] at h
      cases h
    | some created =>
      rw [hcreated, Option.elim_some] at h
      simp only [List.mem_cons, List.not_mem_nil, or_false] at h
      rcases h with rfl | rfl
      · exact ⟨by simp [Attribute.dates], _, rfl⟩
      · exact ⟨by simp [Attribute.dates], _, rfl⟩

theorem Node.mem_dates {node : Node} {entry : String × RawValue}
    (h : entry ∈ node.dates?.elim [] Dates.attributes) :
    entry.1 ∈ Attribute.dates ∧ ∃ t, entry.2 = .date t := by
  cases hdates : node.dates? with
  | none =>
    rw [hdates] at h
    cases h
  | some dates =>
    rw [hdates] at h
    exact dates.mem_attributes h

namespace Item

/-! ## Names -/

theorem names_nodup_set {item : Item} (name : String) (value : RawValue) (h : item.names.Nodup) :
    (item.set name value).names.Nodup := by
  show (Fields.names (Fields.set name value item.entries)).Nodup
  by_cases hmem : name ∈ Fields.names item.entries
  · rw [Fields.names_set_of_mem hmem]
    exact h
  · rw [Fields.names_set_of_not_mem hmem]
    refine List.nodup_append.2 ⟨h, List.nodup_cons.2 ⟨List.not_mem_nil, List.nodup_nil⟩, ?_⟩
    intro n hn m hm hnm
    obtain rfl := List.mem_singleton.1 hm
    exact hmem (hnm ▸ hn)

theorem names_nodup_foldl_set (pairs : List (String × RawValue)) {item : Item}
    (h : item.names.Nodup) :
    (pairs.foldl (fun item pair => item.set pair.1 pair.2) item).names.Nodup := by
  induction pairs generalizing item with
  | nil => exact h
  | cons pair pairs ih => exact ih (names_nodup_set pair.1 pair.2 h)

/-- No name of an item stands twice. -/
theorem names_nodup_ofList (pairs : List (String × RawValue)) : (ofList pairs).names.Nodup :=
  names_nodup_foldl_set pairs List.nodup_nil

theorem mem_of_mem_foldl_set {pairs : List (String × RawValue)} {item : Item}
    {entry : String × RawValue}
    (h : entry ∈ (pairs.foldl (fun item pair => item.set pair.1 pair.2) item).entries) :
    entry ∈ item.entries ∨ entry ∈ pairs := by
  induction pairs generalizing item with
  | nil => exact .inl h
  | cons pair pairs ih =>
    rcases ih h with h | h
    · rcases Fields.mem_of_mem_set h with rfl | h
      · exact .inr List.mem_cons_self
      · exact .inl h
    · exact .inr (List.mem_cons_of_mem _ h)

theorem mem_of_mem_ofList {pairs : List (String × RawValue)} {entry : String × RawValue}
    (h : entry ∈ (ofList pairs).entries) : entry ∈ pairs :=
  (mem_of_mem_foldl_set h).resolve_left List.not_mem_nil

/-! ## Values of names -/

theorem get?_set (item : Item) (name : String) (value : RawValue) (other : String) :
    (item.set name value).get? other = if name = other then some value else item.get? other :=
  Fields.find?_set other

/-- Of the values that are set for a name, the last one stays. -/
theorem get?_ofList (pairs : List (String × RawValue)) (name : String) :
    (ofList pairs).get? name = Fields.find? name pairs.reverse := by
  have hput : ∀ (item : Item) (pair : String × RawValue), (item.set pair.1 pair.2).get? name =
      if pair.1 = name then some pair.2 else item.get? name := fun item pair =>
    get?_set item pair.1 pair.2 name
  have hget := Fields.find?_foldl_put (fun item : Item => item.get? name) hput pairs empty
  exact hget.trans Option.or_none

theorem isSome_get?_ofList_iff {pairs : List (String × RawValue)} {name : String} :
    ((ofList pairs).get? name).isSome = true ↔ name ∈ Fields.names pairs := by
  rw [get?_ofList, Fields.isSome_find?_iff, Fields.names, List.map_reverse, List.mem_reverse,
    Fields.names]

theorem set_ofList (pairs : List (String × RawValue)) (name : String) (value : RawValue) :
    (ofList pairs).set name value = ofList (pairs ++ [(name, value)]) := by
  rw [ofList, ofList, List.foldl_append]
  rfl

/-- The first pair keeps its value if no other one has its name. -/
theorem get?_ofList_cons {name : String} {value : RawValue} {pairs : List (String × RawValue)}
    (h : name ∉ Fields.names pairs) : (ofList ((name, value) :: pairs)).get? name = some value := by
  rw [Fields.names, ← List.mem_reverse, ← List.map_reverse] at h
  rw [get?_ofList, List.reverse_cons, Fields.find?_append, Fields.find?_eq_none h, Option.none_or,
    Fields.find?, if_pos rfl]

/-! ## Typed attributes -/

/-- The typed value of an entry under its name. -/
def typed? (entry : String × RawValue) : Option (String × Value) :=
  entry.2.classify?.map (entry.1, ·)

theorem typed?_of_none {entry : String × RawValue} (h : entry.2.classify? = none) :
    typed? entry = none := by
  rw [typed?, h]
  rfl

theorem typed?_of_some {entry : String × RawValue} {v : Value} (h : entry.2.classify? = some v) :
    typed? entry = some (entry.1, v) := by
  rw [typed?, h]
  rfl

theorem attributes_eq (item : Item) : item.attributes = Fields.ofList (item.entries.filterMap typed?) :=
  rfl

theorem mem_names_of_typed {entries : Fields RawValue} {name : String}
    (h : name ∈ Fields.names (entries.filterMap typed?)) : name ∈ entries.names := by
  obtain ⟨field, hfield, rfl⟩ := List.mem_map.1 h
  obtain ⟨entry, hentry, htyped⟩ := List.mem_filterMap.1 hfield
  obtain ⟨v, -, rfl⟩ := Option.map_eq_some_iff.1 htyped
  exact List.mem_map_of_mem hentry

theorem names_nodup_typed {entries : Fields RawValue} (h : entries.names.Nodup) :
    (Fields.names (entries.filterMap typed?)).Nodup := by
  induction entries with
  | nil => exact List.nodup_nil
  | cons entry rest ih =>
    rw [Fields.names, List.map_cons, List.nodup_cons] at h
    cases htyped : typed? entry with
    | none =>
      rw [List.filterMap_cons_none htyped]
      exact ih h.2
    | some field =>
      rw [List.filterMap_cons_some htyped]
      obtain ⟨v, -, rfl⟩ := Option.map_eq_some_iff.1 htyped
      exact List.nodup_cons.2 ⟨fun hmem => h.1 (mem_names_of_typed hmem), ih h.2⟩

theorem find?_typed {entries : Fields RawValue} (h : entries.names.Nodup) (name : String) :
    Fields.find? name (entries.filterMap typed?) =
      (entries.find? name).bind RawValue.classify? := by
  induction entries with
  | nil => rfl
  | cons entry rest ih =>
    obtain ⟨n, raw⟩ := entry
    rw [Fields.names, List.map_cons, List.nodup_cons] at h
    rw [Fields.find?]
    cases hraw : raw.classify? with
    | none =>
      rw [List.filterMap_cons_none (typed?_of_none hraw)]
      by_cases hn : n = name
      · subst hn
        rw [if_pos rfl, Option.bind_some, hraw]
        exact Fields.find?_eq_none fun hmem => h.1 (mem_names_of_typed hmem)
      · rw [if_neg hn]
        exact ih h.2
    | some v =>
      rw [List.filterMap_cons_some (typed?_of_some hraw), Fields.find?]
      by_cases hn : n = name
      · rw [if_pos hn, if_pos hn, Option.bind_some, hraw]
      · rw [if_neg hn, if_neg hn]
        exact ih h.2

/-- An attribute is the type of the raw value of its name. -/
theorem find?_attributes {item : Item} (h : item.names.Nodup) (name : String) :
    item.attributes.find? name = (item.get? name).bind RawValue.classify? := by
  rw [attributes_eq, Fields.find?_ofList (names_nodup_typed h)]
  exact find?_typed h name

theorem ascending_attributes (item : Item) : item.attributes.Ascending :=
  Fields.ascending_ofList _

/-! ## The file engine -/

theorem get?_path_ofNode (path : Path) (node : Node) :
    (ofNode path node).get? Attribute.path = some (.string path.text) := by
  refine get?_ofList_cons fun hmem => ?_
  obtain ⟨entry, hentry, hname⟩ := List.mem_map.1 hmem
  rcases List.mem_append.1 hentry with hentry | hentry
  · have hother : entry.1 ∈ [Attribute.fileName, Attribute.displayName, Attribute.fileSize,
        Attribute.contentType, Attribute.contentTypeTree] := List.mem_map_of_mem (f := Prod.fst) hentry
    rw [hname] at hother
    exact absurd hother (by decide)
  · have hdate := (Node.mem_dates hentry).1
    rw [hname] at hdate
    exact absurd hdate (by decide)

theorem names_nodup_ofNode (path : Path) (node : Node) : (ofNode path node).names.Nodup :=
  names_nodup_ofList _

end Item

namespace Value

theorem plain_text (s : String) : (text s).Plain := ⟨trivial, trivial, Nat.zero_le _⟩

theorem plain_integer (n : Int64) : (integer n).Plain := ⟨trivial, trivial, Nat.zero_le _⟩

theorem plain_timestamp (t : Instant) : (timestamp t).Plain := ⟨trivial, trivial, Nat.zero_le _⟩

theorem plain_texts (texts : List String) : (list (texts.map text)).Plain := by
  have hitems : NoRealItems (texts.map text) ∧ EveryMapOfItems Text.Ascend (texts.map text) ∧
      itemsDepth (texts.map text) = 0 := by
    induction texts with
    | nil => exact ⟨trivial, trivial, rfl⟩
    | cons s texts ih =>
      refine ⟨⟨trivial, ih.1⟩, ⟨trivial, ih.2.1⟩, ?_⟩
      rw [List.map_cons, itemsDepth, ih.2.2]
      rfl
  refine ⟨hitems.1, hitems.2.1, Nat.le_of_eq ?_⟩
  rw [depth, hitems.2.2]

end Value

theorem RawValue.classifyItems_strings (texts : List String) :
    classifyItems (texts.map .string) = texts.map .text := by
  induction texts with
  | nil => rfl
  | cons s texts ih =>
    rw [List.map_cons, List.map_cons, ← ih]
    rfl

namespace Item

/-- The raw values of a file are texts, integers, dates and lists of texts. -/
theorem raw_ofNode {path : Path} {node : Node} {entry : String × RawValue}
    (h : entry ∈ (ofNode path node).entries) :
    (∃ s, entry.2 = .string s) ∨ (∃ n, entry.2 = .integer n) ∨ (∃ t, entry.2 = .date t) ∨
      ∃ texts : List String, entry.2 = .array (texts.map .string) := by
  rcases List.mem_append.1 (mem_of_mem_ofList h) with h | h
  · simp only [List.mem_cons, List.not_mem_nil, or_false] at h
    rcases h with rfl | rfl | rfl | rfl | rfl | rfl
    · exact .inl ⟨_, rfl⟩
    · exact .inl ⟨_, rfl⟩
    · exact .inl ⟨_, rfl⟩
    · exact .inr (.inl ⟨_, rfl⟩)
    · exact .inl ⟨_, rfl⟩
    · exact .inr (.inr (.inr ⟨_, rfl⟩))
  · exact .inr (.inr (.inl (Node.mem_dates h).2))

/-- The names of the attributes of a file. -/
theorem name_mem_of_ofNode {path : Path} {node : Node} {entry : String × RawValue}
    (h : entry ∈ (ofNode path node).entries) :
    entry.1 ∈ Attribute.others ∨ entry.1 ∈ Attribute.dates := by
  rcases List.mem_append.1 (mem_of_mem_ofList h) with h | h
  · exact .inl (List.mem_map_of_mem (f := Prod.fst) h)
  · exact .inr (Node.mem_dates h).1

/-- **The attributes of a file are plain.** -/
theorem plain_ofNode {path : Path} {node : Node} {field : String × Value}
    (h : field ∈ (ofNode path node).attributes) : field.2.Plain := by
  obtain ⟨entry, hentry, htyped⟩ := List.mem_filterMap.1 (Fields.mem_of_mem_ofList h)
  obtain ⟨v, hv, rfl⟩ := Option.map_eq_some_iff.1 htyped
  show v.Plain
  rcases raw_ofNode hentry with ⟨s, hraw⟩ | ⟨n, hraw⟩ | ⟨t, hraw⟩ | ⟨texts, hraw⟩
  · rw [hraw, RawValue.classify?] at hv
    obtain rfl := Option.some.inj hv
    exact Value.plain_text s
  · rw [hraw, RawValue.classify?] at hv
    obtain rfl := Option.some.inj hv
    exact Value.plain_integer n
  · rw [hraw, RawValue.classify?] at hv
    obtain rfl := Option.some.inj hv
    exact Value.plain_timestamp t
  · rw [hraw, RawValue.classify?, RawValue.classifyItems_strings] at hv
    obtain rfl := Option.some.inj hv
    exact Value.plain_texts texts

end Item

end MetadataSearch
