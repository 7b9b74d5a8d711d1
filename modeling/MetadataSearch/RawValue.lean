import MetadataSearch.Value

/-!
# Raw attribute values

What a metadata engine reports for an attribute before it is typed. A dictionary keeps the order and
the repetitions of its entries; a value of a shape that has no type is `unsupported`, with the name
of the shape.

- `RawValue.number` decides between an integer and a double.
- `RawValue.classify?` types a raw value. Only an unsupported value has no type; unsupported parts of
  arrays and dictionaries are left out, and of a repeated name the last supported entry stays.
-/

namespace MetadataSearch

inductive RawValue where
  | string (s : String)
  | integer (n : Int64)
  | real (x : Binary64)
  | date (t : Instant)
  | array (items : List RawValue)
  | dictionary (entries : List (String × RawValue))
  | unsupported (shape : String)
  deriving Inhabited

namespace RawValue

/-- The nearest 64-bit integer. -/
def clampInt64 (n : Int) : Int64 :=
  if n < Int64.minValue.toInt then Int64.minValue
  else if Int64.maxValue.toInt < n then Int64.maxValue
  else Int64.ofInt n

/-- A number of an engine: an integer if it is whole and not marked as a double. -/
def number (x : Binary64) (isReal : Bool) : RawValue :=
  if isReal || !x.isWhole then .real x
  else .integer (clampInt64 (x.truncate?.getD 0))

def asString? : RawValue → Option String
  | .string s => some s
  | _ => none

mutual

def classify? : RawValue → Option Value
  | .string s => some (.text s)
  | .integer n => some (.integer n)
  | .real x => some (.real x)
  | .date t => some (.timestamp t)
  | .array items => some (.list (classifyItems items))
  | .dictionary entries => some (.map (classifyEntries [] entries))
  | .unsupported _ => none

/-- The types of the supported items. -/
def classifyItems : List RawValue → List Value
  | [] => []
  | item :: items =>
    match item.classify? with
    | some v => v :: classifyItems items
    | none => classifyItems items

/-- The supported entries, inserted one after another into those before. -/
def classifyEntries (before : Fields Value) : List (String × RawValue) → Fields Value
  | [] => before
  | (name, item) :: entries =>
    match item.classify? with
    | some v => classifyEntries (before.insert name v) entries
    | none => classifyEntries before entries

end

end RawValue

end MetadataSearch
