import MetadataSearch.Fields
import MetadataSearch.Numeral

/-!
# JSON values

A JSON value. Whole numbers of 64 bits with a sign are kept exactly, all other numbers are doubles.
Objects are kept in ascending order of names, and `Json.sorted` brings their members into that order at
every level.

`Json.write` is the compact text of a value: no blanks, and escapes only where a string needs them.
-/

namespace MetadataSearch

inductive Json where
  | null
  | bool (value : Bool)
  | integer (value : Int64)
  | real (value : Binary64)
  | string (value : String)
  | array (items : List Json)
  | object (fields : List (String × Json))
  deriving Inhabited

namespace Json

/-! ## Access -/

def asString? : Json → Option String
  | .string s => some s
  | _ => none

def asInteger? : Json → Option Int64
  | .integer n => some n
  | _ => none

def asObject? : Json → Option (Fields Json)
  | .object fields => some fields
  | _ => none

/-- An object of these pairs. -/
def ofPairs (pairs : List (String × Json)) : Json := .object (Fields.ofList pairs)

/-! ## Order of members -/

mutual

/-- The value with the members of every object sorted by their names and collected anew. -/
def sorted : Json → Json
  | .array items => .array (sortedItems items)
  | .object fields =>
    .object (Fields.ofList ((sortedFields fields).mergeSort fun a b => a.1 ≤ b.1))
  | j => j

def sortedItems : List Json → List Json
  | [] => []
  | item :: items => item.sorted :: sortedItems items

def sortedFields : List (String × Json) → List (String × Json)
  | [] => []
  | (name, value) :: fields => (name, value.sorted) :: sortedFields fields

end

/-! ## Compact text -/

/-- The four hexadecimal digits of a control character. -/
def hexDigits (n : Nat) : List Char :=
  [Nat.digitChar (n / 4096 % 16), Nat.digitChar (n / 256 % 16), Nat.digitChar (n / 16 % 16),
    Nat.digitChar (n % 16)]

/-- A character inside a quoted string. -/
def escapeChar (c : Char) : List Char :=
  match c with
  | '"' => ['\\', '"']
  | '\\' => ['\\', '\\']
  | '\x08' => ['\\', 'b']
  | '\x0c' => ['\\', 'f']
  | '\n' => ['\\', 'n']
  | '\r' => ['\\', 'r']
  | '\t' => ['\\', 't']
  | c => if c.toNat < 0x20 then '\\' :: 'u' :: hexDigits c.toNat else [c]

def writeString (s : String) : List Char := '"' :: s.toList.flatMap escapeChar ++ ['"']

/-- Doubles are written positionally while the leading digit has an exponent from -5 to 15. -/
def realLayout : Decimal.Layout := ⟨-5, 15⟩

/-- A double that has no decimal form is written as null. -/
def writeReal (x : Binary64) : List Char := (x.write? realLayout).getD ['n', 'u', 'l', 'l']

mutual

def write : Json → List Char
  | .null => ['n', 'u', 'l', 'l']
  | .bool true => ['t', 'r', 'u', 'e']
  | .bool false => ['f', 'a', 'l', 's', 'e']
  | .integer n => Numeral.ofInt n.toInt
  | .real x => writeReal x
  | .string s => writeString s
  | .array [] => ['[', ']']
  | .array (item :: items) => '[' :: item.write ++ writeItems items ++ [']']
  | .object [] => ['\x7b', '\x7d']
  | .object ((name, value) :: fields) =>
    '\x7b' :: writeString name ++ ':' :: value.write ++ writeFields fields ++ ['\x7d']

/-- The further items of an array, each after a comma. -/
def writeItems : List Json → List Char
  | [] => []
  | item :: items => ',' :: item.write ++ writeItems items

/-- The further members of an object, each after a comma. -/
def writeFields : List (String × Json) → List Char
  | [] => []
  | (name, value) :: fields =>
    ',' :: writeString name ++ ':' :: value.write ++ writeFields fields

end

/-- The compact text as a string. -/
def render (j : Json) : String := String.ofList j.write

end Json

end MetadataSearch
