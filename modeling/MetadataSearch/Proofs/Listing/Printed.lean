import MetadataSearch.Listing
import MetadataSearch.Proofs.Instant.OffsetDateTime

/-!
# Printed listings

What a listing looks like, as a second side of `Listing.read`.

- `Printed` is a value as it may be printed: a text, an integer, a date, the null marker, or a list of
  such values. A list comes with its layout, the blanks before each item and before the closing
  parenthesis.
- `PrintedEntry` adds a name and the blanks around the sign.
- `Listing.write` prints entries, one after another.
-/

namespace MetadataSearch.Listing

/-! ## Layout -/

/-- Texts of characters of one class. -/
abbrev Run (p : Char → Bool) := { text : List Char // ∀ c ∈ text, p c = true }

/-- The run of given characters, which are tested. -/
def Run.of {p : Char → Bool} (text : List Char) (h : text.all p = true) : Run p :=
  ⟨text, List.all_eq_true.1 h⟩

abbrev Blanks := Run Text.isBlank

abbrev InlineBlanks := Run isInlineBlank

/-! ## Values -/

/-- A value and the blanks in it. -/
inductive Printed where
  | string (s : String)
  | integer (n : Int64)
  | date (t : { t : Instant // t.FourDigitSecond })
  | null
  | array (items : List (Blanks × Printed)) (close : Blanks)

/-- A character between quotes. -/
def escapeChar (c : Char) : List Char :=
  if c = '"' ∨ c = '\\' then ['\\', c]
  else if c = '\n' then ['\\', 'n']
  else if c = '\t' then ['\\', 't']
  else [c]

def quote (s : String) : List Char := '"' :: s.toList.flatMap escapeChar ++ ['"']

namespace Printed

mutual

/-- The value that is meant. -/
def value : Printed → RawValue
  | .string s => .string s
  | .integer n => .integer n
  | .date t => .date t.1
  | .null => .unsupported "null"
  | .array items _ => .array (values items)

def values : List (Blanks × Printed) → List RawValue
  | [] => []
  | (_, item) :: items => item.value :: values items

end

mutual

/-- The characters that are printed. -/
def text : Printed → List Char
  | .string s => quote s
  | .integer n => Numeral.ofInt n.toInt
  | .date t => t.1.writeWithOffset
  | .null => "(null)".toList
  | .array items close => '(' :: (itemsText [] items ++ close.1 ++ [')'])

/-- The items of a list, with a separator before the first and commas before the others. -/
def itemsText (separator : List Char) : List (Blanks × Printed) → List Char
  | [] => []
  | (gap, item) :: items => separator ++ gap.1 ++ item.text ++ itemsText [','] items

end

end Printed

/-! ## Entries -/

structure PrintedEntry where
  name : String
  name_ne_empty : name ≠ ""
  nameChars : ∀ c ∈ name.toList, isNameChar c = true
  before : InlineBlanks
  after : InlineBlanks
  printed : Printed

namespace PrintedEntry

def entry (e : PrintedEntry) : String × RawValue := (e.name, e.printed.value)

/-- `NAME = VALUE`, with any blanks around the sign and the end of a line behind the value. -/
def text (e : PrintedEntry) : List Char :=
  e.name.toList ++ e.before.1 ++ '=' :: (e.after.1 ++ e.printed.text ++ ['\n'])

end PrintedEntry

/-- The listing of entries. -/
def write (entries : List PrintedEntry) : String :=
  String.ofList (entries.flatMap PrintedEntry.text)

end MetadataSearch.Listing
