import MetadataSearch.Proofs.Engine.FileItems

/-!
# Types of raw values

**Theorem (`RawValue.classify?_supported`).** Only an unsupported value has no type. Any other value has
the type that it has shape by shape (`RawValue.Converts`) after all that is unsupported in it was deleted,
at every depth (`RawValue.pruned`). So a list has one item for each supported item, in their order, and a
map has the names of the supported entries, each with the last one of them.

Deleting and typing are two passes over a value; `classify?` is one. They agree by induction on the value
(`RawValue.converts_pruned_iff`), where a part is supported exactly if it has a type
(`RawValue.isSome_classify?`). What a map holds is settled by what stays of repeated names when fields are
put together (`Fields.find?_ofList_reverse`): unsupported entries are gone by then, so they erase nothing.
-/

namespace MetadataSearch.RawValue

/-! ## Deleting unsupported parts -/

def isSupported : RawValue → Bool
  | .unsupported _ => false
  | _ => true

mutual

/-- The value without the unsupported items and entries in it, at every depth. -/
def pruned : RawValue → RawValue
  | .array items => .array (prunedItems items)
  | .dictionary entries => .dictionary (prunedEntries entries)
  | other => other

def prunedItems : List RawValue → List RawValue
  | [] => []
  | item :: items =>
    if item.isSupported then item.pruned :: prunedItems items else prunedItems items

def prunedEntries : List (String × RawValue) → List (String × RawValue)
  | [] => []
  | (name, item) :: entries =>
    if item.isSupported then (name, item.pruned) :: prunedEntries entries else prunedEntries entries

end

/-! ## Shape by shape -/

mutual

/-- A raw value as a typed one. An unsupported shape stands for none. -/
inductive Converts : RawValue → Value → Prop
  | string (s : String) : Converts (.string s) (.text s)
  | integer (n : Int64) : Converts (.integer n) (.integer n)
  | real (x : Binary64) : Converts (.real x) (.real x)
  | date (t : Instant) : Converts (.date t) (.timestamp t)
  | array {items : List RawValue} {values : List Value} (h : ItemsConvert items values) :
      Converts (.array items) (.list values)
  | dictionary {entries : List (String × RawValue)} {pairs : List (String × Value)}
      (h : EntriesConvert entries pairs) :
      Converts (.dictionary entries) (.map (Fields.ofList pairs))

/-- Item by item, in the same order. -/
inductive ItemsConvert : List RawValue → List Value → Prop
  | nil : ItemsConvert [] []
  | cons {item : RawValue} {v : Value} {items : List RawValue} {values : List Value}
      (hitem : Converts item v) (hitems : ItemsConvert items values) :
      ItemsConvert (item :: items) (v :: values)

/-- Entry by entry, each under its name. -/
inductive EntriesConvert : List (String × RawValue) → List (String × Value) → Prop
  | nil : EntriesConvert [] []
  | cons {name : String} {item : RawValue} {v : Value} {entries : List (String × RawValue)}
      {pairs : List (String × Value)} (hitem : Converts item v)
      (hentries : EntriesConvert entries pairs) :
      EntriesConvert ((name, item) :: entries) ((name, v) :: pairs)

end

/-! ## One pass and two -/

theorem isSome_classify? (r : RawValue) : r.classify?.isSome = r.isSupported := by
  cases r <;> rfl

theorem exists_classify? {r : RawValue} (h : r.isSupported = true) : ∃ v, r.classify? = some v := by
  rw [← isSome_classify?, Option.isSome_iff_exists] at h
  exact h

theorem classify?_eq_none_iff {r : RawValue} : r.classify? = none ↔ r.isSupported = false := by
  rw [← isSome_classify?, Option.isSome_eq_false_iff, Option.isNone_iff_eq_none]

theorem classifyEntries_eq (entries : List (String × RawValue)) (before : Fields Value) :
    classifyEntries before entries =
      (entries.filterMap Item.typed?).foldl (fun fields pair => Fields.insert pair.1 pair.2 fields)
        before := by
  induction entries generalizing before with
  | nil => rfl
  | cons entry entries ih =>
    obtain ⟨name, item⟩ := entry
    rw [classifyEntries]
    cases hitem : item.classify? with
    | none =>
      rw [List.filterMap_cons_none (Item.typed?_of_none hitem)]
      exact ih before
    | some v =>
      rw [List.filterMap_cons_some (Item.typed?_of_some hitem)]
      exact ih (before.insert name v)

theorem classify?_dictionary (entries : List (String × RawValue)) :
    (dictionary entries).classify? = some (.map (Fields.ofList (entries.filterMap Item.typed?))) := by
  rw [classify?, classifyEntries_eq]
  rfl

mutual

/-- **Deleting what is unsupported and typing the rest is typing the whole.** -/
theorem converts_pruned_iff : (r : RawValue) → (v : Value) →
    (Converts r.pruned v ↔ r.classify? = some v)
  | .string s, v | .integer n, v | .real x, v | .date t, v => by
    constructor
    · rintro ⟨⟩
      rfl
    · rintro ⟨⟩
      constructor
  | .unsupported shape, v => by
    constructor
    · rintro ⟨⟩
    · rintro ⟨⟩
  | .array items, v => by
    rw [pruned, classify?]
    constructor
    · intro h
      cases h with
      | array hitems => rw [(itemsConvert_pruned_iff items _).1 hitems]
    · rintro ⟨⟩
      exact .array ((itemsConvert_pruned_iff items _).2 rfl)
  | .dictionary entries, v => by
    rw [pruned, classify?_dictionary]
    constructor
    · intro h
      cases h with
      | dictionary hentries => rw [(entriesConvert_pruned_iff entries _).1 hentries]
    · rintro ⟨⟩
      exact .dictionary ((entriesConvert_pruned_iff entries _).2 rfl)

theorem itemsConvert_pruned_iff : (items : List RawValue) → (values : List Value) →
    (ItemsConvert (prunedItems items) values ↔ classifyItems items = values)
  | [], values => by
    constructor
    · rintro ⟨⟩
      rfl
    · rintro rfl
      exact .nil
  | item :: items, values => by
    rw [prunedItems, classifyItems]
    by_cases hitem : item.isSupported = true
    · obtain ⟨v, hv⟩ := exists_classify? hitem
      rw [if_pos hitem, hv]
      constructor
      · intro h
        cases h with
        | cons hconverts hitems =>
          rw [converts_pruned_iff item, hv, Option.some_inj] at hconverts
          rw [hconverts, ← (itemsConvert_pruned_iff items _).1 hitems]
      · rintro rfl
        exact .cons ((converts_pruned_iff item v).2 hv) ((itemsConvert_pruned_iff items _).2 rfl)
    · rw [if_neg hitem, classify?_eq_none_iff.2 (Bool.eq_false_iff.2 hitem)]
      exact itemsConvert_pruned_iff items values

theorem entriesConvert_pruned_iff : (entries : List (String × RawValue)) →
    (pairs : List (String × Value)) →
    (EntriesConvert (prunedEntries entries) pairs ↔ entries.filterMap Item.typed? = pairs)
  | [], pairs => by
    constructor
    · rintro ⟨⟩
      rfl
    · rintro rfl
      exact .nil
  | (name, item) :: entries, pairs => by
    rw [prunedEntries]
    by_cases hitem : item.isSupported = true
    · obtain ⟨v, hv⟩ := exists_classify? hitem
      rw [if_pos hitem, List.filterMap_cons_some (Item.typed?_of_some hv)]
      constructor
      · intro h
        cases h with
        | cons hconverts hentries =>
          rw [converts_pruned_iff item, hv, Option.some_inj] at hconverts
          rw [hconverts, ← (entriesConvert_pruned_iff entries _).1 hentries]
      · rintro rfl
        exact .cons ((converts_pruned_iff item v).2 hv) ((entriesConvert_pruned_iff entries _).2 rfl)
    · have hnone := classify?_eq_none_iff.2 (Bool.eq_false_iff.2 hitem)
      rw [if_neg hitem, List.filterMap_cons_none (Item.typed?_of_none hnone)]
      exact entriesConvert_pruned_iff entries pairs

end

/-! ## What lists and maps hold -/

theorem map_classify?_filter (items : List RawValue) :
    (items.filter isSupported).map classify? = (classifyItems items).map some := by
  induction items with
  | nil => rfl
  | cons item items ih =>
    rw [classifyItems]
    by_cases hitem : item.isSupported = true
    · obtain ⟨v, hv⟩ := exists_classify? hitem
      rw [List.filter_cons_of_pos hitem, List.map_cons, ih, hv]
      rfl
    · rw [List.filter_cons_of_neg hitem, classify?_eq_none_iff.2 (Bool.eq_false_iff.2 hitem)]
      exact ih

/-- The value of the first supported entry with a name. -/
def firstSupported? (name : String) (entries : List (String × RawValue)) : Option RawValue :=
  (entries.find? fun entry => entry.1 == name && entry.2.isSupported).map Prod.snd

/-- The value of the last supported entry with a name. -/
def lastSupported? (name : String) (entries : List (String × RawValue)) : Option RawValue :=
  firstSupported? name entries.reverse

theorem isSome_lastSupported?_iff {name : String} {entries : List (String × RawValue)} :
    (lastSupported? name entries).isSome = true ↔
      ∃ item, (name, item) ∈ entries ∧ item.isSupported = true := by
  rw [lastSupported?, firstSupported?, Option.isSome_map, List.find?_isSome]
  constructor
  · rintro ⟨⟨n, item⟩, hmem, hentry⟩
    rw [Bool.and_eq_true, beq_iff_eq] at hentry
    obtain ⟨rfl, hitem⟩ := hentry
    exact ⟨item, List.mem_reverse.1 hmem, hitem⟩
  · rintro ⟨item, hmem, hitem⟩
    exact ⟨(name, item), List.mem_reverse.2 hmem, by simp [hitem]⟩

/-- Unsupported entries hide no others. -/
theorem find?_typed_eq (name : String) (entries : List (String × RawValue)) :
    Fields.find? name (entries.filterMap Item.typed?) =
      (firstSupported? name entries).bind classify? := by
  induction entries with
  | nil => rfl
  | cons entry entries ih =>
    obtain ⟨n, item⟩ := entry
    rw [firstSupported?] at *
    by_cases hitem : item.isSupported = true
    · obtain ⟨v, hv⟩ := exists_classify? hitem
      rw [List.filterMap_cons_some (Item.typed?_of_some hv), Fields.find?]
      by_cases hname : n = name
      · rw [if_pos hname, List.find?_cons_of_pos (by simp [hname, hitem])]
        exact hv.symm
      · rw [if_neg hname, List.find?_cons_of_neg (by simp [hname]), ih]
    · have hnone := classify?_eq_none_iff.2 (Bool.eq_false_iff.2 hitem)
      rw [List.filterMap_cons_none (Item.typed?_of_none hnone),
        List.find?_cons_of_neg (by simp [hitem]), ih]

theorem find?_typedEntries (entries : List (String × RawValue)) (name : String) :
    Fields.find? name (Fields.ofList (entries.filterMap Item.typed?)) =
      (lastSupported? name entries).bind classify? := by
  rw [Fields.find?_ofList_reverse, ← List.filterMap_reverse, find?_typed_eq]
  rfl

theorem mem_names_typedEntries_iff {entries : List (String × RawValue)} {name : String} :
    name ∈ Fields.names (Fields.ofList (entries.filterMap Item.typed?)) ↔
      ∃ item, (name, item) ∈ entries ∧ item.isSupported = true := by
  rw [← Fields.isSome_find?_iff, find?_typedEntries, ← isSome_lastSupported?_iff]
  cases hlast : lastSupported? name entries with
  | none => rfl
  | some item =>
    have hsupported : item.isSupported = true := by
      obtain ⟨entry, hentry, rfl⟩ := Option.map_eq_some_iff.1 hlast
      exact (Bool.and_eq_true _ _ ▸ List.find?_some hentry).2
    rw [Option.bind_some, isSome_classify?, hsupported]
    rfl

/-- **Exactly the unsupported parts are left out.** -/
theorem classify?_supported :
    (∀ r, classify? r = none ↔ ∃ shape, r = .unsupported shape) ∧
    (∀ r v, classify? r = some v ↔ Converts r.pruned v) ∧
    (∀ items, ∃ values, (array items).classify? = some (.list values) ∧
      (items.filter isSupported).map classify? = values.map some) ∧
    ∀ entries, ∃ fields : Fields Value, (dictionary entries).classify? = some (.map fields) ∧
      fields.Ascending ∧ ∀ name,
        (name ∈ fields.names ↔ ∃ item, (name, item) ∈ entries ∧ item.isSupported = true) ∧
        fields.find? name = (lastSupported? name entries).bind classify? := by
  refine ⟨fun r => ?_, fun r v => (converts_pruned_iff r v).symm, fun items => ?_, fun entries => ?_⟩
  · cases r <;> simp [classify?]
  · exact ⟨classifyItems items, rfl, map_classify?_filter items⟩
  · exact ⟨_, classify?_dictionary entries, Fields.ascending_ofList _,
      fun name => ⟨mem_names_typedEntries_iff, find?_typedEntries entries name⟩⟩

/-- An unsupported repetition does not erase an entry. -/
example : (dictionary [("k", .integer 1), ("k", .array [.unsupported "data", .string "a"]),
    ("k", .unsupported "null")]).classify? = some (.map [("k", .list [.text "a"])]) := rfl

end MetadataSearch.RawValue
