import MetadataSearch.Json

/-!
# Indented JSON

The text of a value with one member or item per line, each level indented by two spaces more. Empty
arrays and objects stay on their line.
-/

namespace MetadataSearch.Json

/-- A line break and the indentation of a level. -/
def lineBreak (level : Nat) : List Char := '\n' :: List.replicate (2 * level) ' '

mutual

def writeIndented (level : Nat) : Json → List Char
  | .array [] => ['[', ']']
  | .array (item :: items) =>
    '[' :: lineBreak (level + 1) ++ item.writeIndented (level + 1) ++
      writeIndentedItems (level + 1) items ++ lineBreak level ++ [']']
  | .object [] => ['\x7b', '\x7d']
  | .object ((name, value) :: fields) =>
    '\x7b' :: lineBreak (level + 1) ++ writeString name ++ ':' :: ' ' ::
      value.writeIndented (level + 1) ++ writeIndentedFields (level + 1) fields ++
      lineBreak level ++ ['\x7d']
  | j => j.write

/-- The further items of an array. -/
def writeIndentedItems (level : Nat) : List Json → List Char
  | [] => []
  | item :: items =>
    ',' :: lineBreak level ++ item.writeIndented level ++ writeIndentedItems level items

/-- The further members of an object. -/
def writeIndentedFields (level : Nat) : List (String × Json) → List Char
  | [] => []
  | (name, value) :: fields =>
    ',' :: lineBreak level ++ writeString name ++ ':' :: ' ' :: value.writeIndented level ++
      writeIndentedFields level fields

end

def renderIndented (j : Json) : String := String.ofList (j.writeIndented 0)

end MetadataSearch.Json
