import MetadataSearch.Proofs.Json.Reading
import MetadataSearch.Value

/-!
# Encoded values are decoded again

**Theorem (`decode_encode`).** A value without doubles, nested at most 127 deep, is encoded to a text
that decodes to the same value, where every timestamp has become its text. In that text the names of
every object ascend by bytes.

Texts, integers, lists and maps have a JSON shape of their own, so `Value.ofJson` undoes
`Value.toJson` part by part (`ofJson_toJson`); timestamps share the shape of texts. `read?_write`
does the rest, because `toJson` keeps the depth and the names of a value, and the text of that shape is
what `encode` writes without it (`encode_eq_render`).
-/

namespace MetadataSearch

/-! ## JSON values at every level -/

namespace Json

variable {p q : List String → Prop}

mutual

theorem EveryObject.mono (h : ∀ names, p names → q names) :
    (j : Json) → j.EveryObject p → j.EveryObject q
  | .null, _ => trivial
  | .bool _, _ => trivial
  | .integer _, _ => trivial
  | .real _, _ => trivial
  | .string _, _ => trivial
  | .array items, hj => EveryObject.mono_items h items hj
  | .object fields, hj => ⟨h _ hj.1, EveryObject.mono_fields h fields hj.2⟩

theorem EveryObject.mono_items (h : ∀ names, p names → q names) :
    (items : List Json) → EveryObjectOfItems p items → EveryObjectOfItems q items
  | [], _ => trivial
  | item :: items, hj => ⟨EveryObject.mono h item hj.1, EveryObject.mono_items h items hj.2⟩

theorem EveryObject.mono_fields (h : ∀ names, p names → q names) :
    (fields : List (String × Json)) → EveryObjectOfFields p fields → EveryObjectOfFields q fields
  | [], _ => trivial
  | (_, value) :: fields, hj =>
    ⟨EveryObject.mono h value hj.1, EveryObject.mono_fields h fields hj.2⟩

end

end Json

namespace Value

/-! ## Values at every level -/

mutual

/-- No double anywhere. -/
def NoReal : Value → Prop
  | .real _ => False
  | .list items => NoRealItems items
  | .map entries => NoRealEntries entries
  | _ => True

def NoRealItems : List Value → Prop
  | [] => True
  | v :: items => v.NoReal ∧ NoRealItems items

def NoRealEntries : List (String × Value) → Prop
  | [] => True
  | (_, v) :: entries => v.NoReal ∧ NoRealEntries entries

end

mutual

/-- What holds of the names of every map, at every level. -/
def EveryMap (p : List String → Prop) : Value → Prop
  | .list items => EveryMapOfItems p items
  | .map entries => p (Fields.names entries) ∧ EveryMapOfEntries p entries
  | _ => True

def EveryMapOfItems (p : List String → Prop) : List Value → Prop
  | [] => True
  | v :: items => v.EveryMap p ∧ EveryMapOfItems p items

def EveryMapOfEntries (p : List String → Prop) : List (String × Value) → Prop
  | [] => True
  | (_, v) :: entries => v.EveryMap p ∧ EveryMapOfEntries p entries

end

mutual

/-- How deep lists and maps are nested. -/
def depth : Value → Nat
  | .list items => 1 + itemsDepth items
  | .map entries => 1 + entriesDepth entries
  | _ => 0

def itemsDepth : List Value → Nat
  | [] => 0
  | v :: items => max v.depth (itemsDepth items)

def entriesDepth : List (String × Value) → Nat
  | [] => 0
  | (_, v) :: entries => max v.depth (entriesDepth entries)

end

mutual

/-- The value with the text of every timestamp in place of it. -/
def datesAsText : Value → Value
  | .timestamp t => .text t.format
  | .list items => .list (itemsDatesAsText items)
  | .map entries => .map (entriesDatesAsText entries)
  | v => v

def itemsDatesAsText : List Value → List Value
  | [] => []
  | v :: items => v.datesAsText :: itemsDatesAsText items

def entriesDatesAsText : List (String × Value) → List (String × Value)
  | [] => []
  | (name, v) :: entries => (name, v.datesAsText) :: entriesDatesAsText entries

end

/-! ## What the JSON form keeps -/

theorem names_entriesToJson (entries : List (String × Value)) :
    Fields.names (entriesToJson entries) = Fields.names entries := by
  induction entries with
  | nil => rfl
  | cons entry entries ih => exact congrArg (entry.1 :: ·) ih

mutual

theorem noReal_toJson : (v : Value) → v.NoReal → v.toJson.NoReal
  | .text _, _ => trivial
  | .integer _, _ => trivial
  | .real _, h => h.elim
  | .timestamp _, _ => trivial
  | .list items, h => noReal_itemsToJson items h
  | .map entries, h => noReal_entriesToJson entries h

theorem noReal_itemsToJson :
    (items : List Value) → NoRealItems items → Json.NoRealItems (itemsToJson items)
  | [], _ => trivial
  | v :: items, h => ⟨noReal_toJson v h.1, noReal_itemsToJson items h.2⟩

theorem noReal_entriesToJson : (entries : List (String × Value)) → NoRealEntries entries →
    Json.NoRealFields (entriesToJson entries)
  | [], _ => trivial
  | (_, v) :: entries, h => ⟨noReal_toJson v h.1, noReal_entriesToJson entries h.2⟩

end

section

variable {p : List String → Prop}

mutual

theorem everyObject_toJson : (v : Value) → v.EveryMap p → v.toJson.EveryObject p
  | .text _, _ => trivial
  | .integer _, _ => trivial
  | .real x, _ => by
    rw [toJson]
    split <;> trivial
  | .timestamp _, _ => trivial
  | .list items, h => everyObject_itemsToJson items h
  | .map entries, h =>
    ⟨(names_entriesToJson entries).symm ▸ h.1, everyObject_entriesToJson entries h.2⟩

theorem everyObject_itemsToJson : (items : List Value) → EveryMapOfItems p items →
    Json.EveryObjectOfItems p (itemsToJson items)
  | [], _ => trivial
  | v :: items, h => ⟨everyObject_toJson v h.1, everyObject_itemsToJson items h.2⟩

theorem everyObject_entriesToJson : (entries : List (String × Value)) →
    EveryMapOfEntries p entries → Json.EveryObjectOfFields p (entriesToJson entries)
  | [], _ => trivial
  | (_, v) :: entries, h => ⟨everyObject_toJson v h.1, everyObject_entriesToJson entries h.2⟩

end

end

mutual

theorem depth_toJson : (v : Value) → v.toJson.depth = v.depth
  | .text _ => rfl
  | .integer _ => rfl
  | .real x => by
    rw [toJson]
    split <;> rfl
  | .timestamp _ => rfl
  | .list items => congrArg (1 + ·) (depth_itemsToJson items)
  | .map entries => congrArg (1 + ·) (depth_entriesToJson entries)

theorem depth_itemsToJson :
    (items : List Value) → Json.itemsDepth (itemsToJson items) = itemsDepth items
  | [] => rfl
  | v :: items => by
    rw [itemsToJson, Json.itemsDepth, itemsDepth, depth_toJson v, depth_itemsToJson items]

theorem depth_entriesToJson : (entries : List (String × Value)) →
    Json.fieldsDepth (entriesToJson entries) = entriesDepth entries
  | [] => rfl
  | (_, v) :: entries => by
    rw [entriesToJson, Json.fieldsDepth, entriesDepth, depth_toJson v, depth_entriesToJson entries]

end

/-! ## The text of the JSON form -/

mutual

/-- The JSON form of a value is written as the value is. -/
theorem write_toJson : (v : Value) → v.toJson.write = v.write
  | .text _ => rfl
  | .integer _ => rfl
  | .real x => by
    rw [toJson, write]
    cases x <;> rfl
  | .timestamp _ => rfl
  | .list [] => rfl
  | .list (v :: items) => by
    rw [toJson, itemsToJson, Json.write, write, write_toJson v, writeItems_itemsToJson items]
  | .map [] => rfl
  | .map ((name, v) :: entries) => by
    rw [toJson, entriesToJson, Json.write, write, write_toJson v, writeFields_entriesToJson entries]

theorem writeItems_itemsToJson : (items : List Value) →
    Json.writeItems (itemsToJson items) = writeItems items
  | [] => rfl
  | v :: items => by
    rw [itemsToJson, Json.writeItems, writeItems, write_toJson v, writeItems_itemsToJson items]

theorem writeFields_entriesToJson : (entries : List (String × Value)) →
    Json.writeFields (entriesToJson entries) = writeEntries entries
  | [] => rfl
  | (name, v) :: entries => by
    rw [entriesToJson, Json.writeFields, writeEntries, write_toJson v,
      writeFields_entriesToJson entries]

end

theorem encode_eq_render (v : Value) : v.encode = v.toJson.render := by
  rw [encode, Json.render, write_toJson]

/-! ## Back from JSON -/

mutual

/-- Shape by shape, a value comes back from its JSON form. -/
theorem ofJson_toJson : (v : Value) → v.NoReal → ofJson v.toJson = .ok v.datesAsText
  | .text _, _ => rfl
  | .integer _, _ => rfl
  | .real _, h => h.elim
  | .timestamp _, _ => rfl
  | .list items, h => by
    rw [toJson, ofJson, ofItems_itemsToJson 0 items h]
    rfl
  | .map entries, h => by
    rw [toJson, ofJson, ofMembers_entriesToJson entries h]
    rfl

theorem ofItems_itemsToJson (i : Nat) : (items : List Value) → NoRealItems items →
    ofItems i (itemsToJson items) = .ok (itemsDatesAsText items)
  | [], _ => rfl
  | v :: items, h => by
    rw [itemsToJson, ofItems, ofJson_toJson v h.1, ofItems_itemsToJson (i + 1) items h.2]
    rfl

theorem ofMembers_entriesToJson : (entries : List (String × Value)) → NoRealEntries entries →
    ofMembers (entriesToJson entries) = .ok (entriesDatesAsText entries)
  | [], _ => rfl
  | (name, v) :: entries, h => by
    rw [entriesToJson, ofMembers, ofJson_toJson v h.1, ofMembers_entriesToJson entries h.2]
    rfl

end

/-! ## The round trip -/

/-- The text of a value is read as the JSON form of the value. -/
theorem read?_encode {v : Value} (hreal : v.NoReal) (hmaps : v.EveryMap Text.Ascend)
    (hdepth : v.depth ≤ Json.depthLimit) :
    Json.read? Json.depthLimit v.encode.toList = some v.toJson := by
  rw [encode_eq_render, Json.render, String.toList_ofList]
  exact Json.read?_write (noReal_toJson v hreal) (everyObject_toJson v hmaps)
    (depth_toJson v ▸ hdepth)

theorem decode_of_noReal {v : Value} (hreal : v.NoReal) (hmaps : v.EveryMap Text.Ascend)
    (hdepth : v.depth ≤ Json.depthLimit) : decode v.encode = .ok v.datesAsText := by
  rw [decode, read?_encode hreal hmaps hdepth]
  show (ofJson v.toJson).mapError DecodeError.corrupted = .ok v.datesAsText
  rw [ofJson_toJson v hreal]
  rfl

/-- **Decoding undoes encoding.** Every map keeps its entries in ascending order of names, which is
what `hmaps` says at every level. The encoded text is the text of a JSON value, in the order in which
that value has its members, and there the names ascend by bytes. -/
theorem decode_encode (v : Value) (hreal : v.NoReal) (hmaps : v.EveryMap Text.Ascend)
    (hdepth : v.depth ≤ 127) :
    decode v.encode = .ok v.datesAsText ∧
      ∃ j : Json, v.encode = j.render ∧ Json.read? Json.depthLimit v.encode.toList = some j ∧
        j.EveryObject Text.AscendByBytes :=
  ⟨decode_of_noReal hreal hmaps hdepth, v.toJson, v.encode_eq_render,
    read?_encode hreal hmaps hdepth,
    Json.EveryObject.mono (fun _ h => h.byBytes) v.toJson (everyObject_toJson v hmaps)⟩

/-- Names and texts with quotes, control characters and characters of four bytes, an instant in a
list, both bounds of the integers and empty collections. -/
def manyShapes : Value :=
  .map [("", .list [.timestamp ⟨0, 0⟩, .integer Int64.minValue, .list [], .map []]),
    ("a\"\\", .text "\x00\n\u2028"), ("é", .integer Int64.maxValue),
    ("\uffff", .text ""), ("😀", .map [("", .text "/😀")])]

theorem decode_encode_manyShapes :
    decode manyShapes.encode =
        .ok (.map [("", .list [.text "1970-01-01T00:00:00Z", .integer Int64.minValue, .list [],
            .map []]),
          ("a\"\\", .text "\x00\n\u2028"), ("é", .integer Int64.maxValue),
          ("\uffff", .text ""), ("😀", .map [("", .text "/😀")])]) ∧
      ∃ j : Json, manyShapes.encode = j.render ∧
        Json.read? Json.depthLimit manyShapes.encode.toList = some j ∧
        j.EveryObject Text.AscendByBytes := by
  have hformat : Instant.format ⟨0, 0⟩ = "1970-01-01T00:00:00Z" := by decide +kernel
  have h := decode_encode manyShapes (by simp [manyShapes, NoReal, NoRealItems, NoRealEntries])
    (by
      simp only [manyShapes, EveryMap, EveryMapOfItems, EveryMapOfEntries, Text.Ascend]
      decide)
    (by decide)
  simp only [manyShapes, datesAsText, itemsDatesAsText, entriesDatesAsText, hformat] at h ⊢
  exact h

end Value

end MetadataSearch
