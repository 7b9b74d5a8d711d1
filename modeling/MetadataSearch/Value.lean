import MetadataSearch.Instant.Text
import MetadataSearch.Json.Reader

/-!
# Attribute values

The typed values that attributes of a file can have. A map keeps its entries in ascending order of
names.

- `Value.toJson` gives each value its JSON shape: an instant becomes its text, a double without a
  decimal form becomes null.
- `Value.encode` writes the compact JSON text of a value, part by part and without that shape between.
- `Value.ofJson` goes back. A JSON value with a null or a boolean in it is refused, with the path to
  the first one and its shape. An instant comes back as text, which `Value.asInstant?` still reads.
-/

namespace MetadataSearch

inductive Value where
  | text (s : String)
  | integer (n : Int64)
  | real (x : Binary64)
  | timestamp (t : Instant)
  | list (items : List Value)
  | map (entries : List (String × Value))
  deriving Inhabited

/-- The attributes of one file, by ascending names. -/
abbrev Attributes := Fields Value

namespace Value

def asText? : Value → Option String
  | .text s => some s
  | _ => none

def asInteger? : Value → Option Int64
  | .integer n => some n
  | _ => none

/-- The instant of a timestamp, or of a text in RFC 3339 form. -/
def asInstant? : Value → Option Instant
  | .timestamp t => some t
  | .text s => Instant.readRfc3339? s.toList
  | _ => none

def kindName : Value → String
  | .text _ => "text"
  | .integer _ => "integer"
  | .real _ => "real"
  | .timestamp _ => "timestamp"
  | .list _ => "list"
  | .map _ => "map"

/-! ## To JSON -/

mutual

def toJson : Value → Json
  | .text s => .string s
  | .integer n => .integer n
  | .real x => if x.isFinite then .real x else .null
  | .timestamp t => .string t.format
  | .list items => .array (itemsToJson items)
  | .map entries => .object (entriesToJson entries)

def itemsToJson : List Value → List Json
  | [] => []
  | v :: items => v.toJson :: itemsToJson items

def entriesToJson : List (String × Value) → List (String × Json)
  | [] => []
  | (name, v) :: entries => (name, v.toJson) :: entriesToJson entries

end

/-! ## Compact text -/

mutual

def write : Value → List Char
  | .text s => Json.writeString s
  | .integer n => Numeral.ofInt n.toInt
  | .real x => Json.writeReal x
  | .timestamp t => Json.writeString t.format
  | .list [] => ['[', ']']
  | .list (v :: items) => '[' :: v.write ++ writeItems items ++ [']']
  | .map [] => ['\x7b', '\x7d']
  | .map ((name, v) :: entries) =>
    '\x7b' :: Json.writeString name ++ ':' :: v.write ++ writeEntries entries ++ ['\x7d']

/-- The further items of a list, each after a comma. -/
def writeItems : List Value → List Char
  | [] => []
  | v :: items => ',' :: v.write ++ writeItems items

/-- The further entries of a map, each after a comma. -/
def writeEntries : List (String × Value) → List Char
  | [] => []
  | (name, v) :: entries =>
    ',' :: Json.writeString name ++ ':' :: v.write ++ writeEntries entries

end

/-- The compact JSON text. -/
def encode (v : Value) : String := String.ofList v.write

/-! ## From JSON -/

/-- A step from a JSON value into a part of it. -/
inductive Step where
  | index (i : Nat)
  | member (name : String)
  deriving DecidableEq

/-- The shapes of JSON that no value has. -/
inductive BadShape where
  | null
  | bool
  deriving DecidableEq

/-- The first part of a JSON value that no value can hold. -/
structure Corrupted where
  path : List Step
  shape : BadShape
  deriving DecidableEq

def Step.text : Step → String
  | .index i => "[" ++ String.ofList (Numeral.ofNat i) ++ "]"
  | .member name => "." ++ name

def BadShape.text : BadShape → String
  | .null => "null"
  | .bool => "bool"

namespace Corrupted

/-- The same part, seen from one step further out. -/
def under (step : Step) (e : Corrupted) : Corrupted := { e with path := step :: e.path }

/-- The path from the document, which is written as a dollar sign. -/
def pathText (e : Corrupted) : String := e.path.foldl (fun text step => text ++ step.text) "$"

def message (e : Corrupted) : String :=
  "Data corrupted at " ++ e.pathText ++ ": unable to decode metadata value from " ++ e.shape.text

end Corrupted

mutual

def ofJson : Json → Except Corrupted Value
  | .null => .error ⟨[], .null⟩
  | .bool _ => .error ⟨[], .bool⟩
  | .integer n => .ok (.integer n)
  | .real x => .ok (.real x)
  | .string s => .ok (.text s)
  | .array items => (ofItems 0 items).map .list
  | .object fields => (ofMembers fields).map .map

/-- The items of an array from index `i` on. -/
def ofItems (i : Nat) : List Json → Except Corrupted (List Value)
  | [] => .ok []
  | j :: items => do
    let v ← (ofJson j).mapError (Corrupted.under (.index i))
    let rest ← ofItems (i + 1) items
    return v :: rest

def ofMembers : List (String × Json) → Except Corrupted (List (String × Value))
  | [] => .ok []
  | (name, j) :: fields => do
    let v ← (ofJson j).mapError (Corrupted.under (.member name))
    let rest ← ofMembers fields
    return (name, v) :: rest

end

/-- Why a text gives no value. -/
inductive DecodeError where
  | syntaxError
  | corrupted (e : Corrupted)

/-- The value of a JSON text. -/
def decode (text : String) : Except DecodeError Value :=
  match Json.read? Json.depthLimit text.toList with
  | none => .error .syntaxError
  | some j => (ofJson j).mapError .corrupted

/-- The value of a JSON text as `decode` gives it, except that a corrupted value at the front of the
text is reported even if more than blanks follow it. -/
def decodeFront (text : String) : Except DecodeError Value :=
  match Json.readFront? Json.depthLimit text.toList with
  | none => .error .syntaxError
  | some (j, rest) =>
    match ofJson j with
    | .error e => .error (.corrupted e)
    | .ok v => if rest.all Json.isSpace then .ok v else .error .syntaxError

end Value

end MetadataSearch
