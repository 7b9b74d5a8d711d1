import MetadataSearch.Item
import MetadataSearch.Kind

/-!
# Predicates

A predicate is a query text, either built from what a caller wants or written by the caller. Built
ones compare the text content with a text, the content type tree with a kind, or the modification
date with a date.
-/

namespace MetadataSearch

inductive Origin where
  /-- Built here. -/
  | built
  /-- Written by a caller. -/
  | raw
  deriving DecidableEq

structure Predicate where
  text : String
  origin : Origin
  deriving DecidableEq

namespace Predicate

/-- The text inside double quotes: quotes and backslashes are escaped with a backslash. -/
def escape : List Char → List Char
  | [] => []
  | c :: rest =>
    if c = '"' ∨ c = '\\' then '\\' :: c :: escape rest else c :: escape rest

/-- The text content holds this text, in any letter case. -/
def naturalText (text : String) : Predicate :=
  ⟨Attribute.textContent ++ " == \"*" ++ String.ofList (escape text.toList) ++ "*\"cd", .built⟩

/-- The file is of this kind. -/
def ofKind (kind : Kind) : Predicate :=
  ⟨Attribute.contentTypeTree ++ " == \"" ++ kind.contentType ++ "\"", .built⟩

/-- The content was modified at this date or later. The date is inserted as it is. -/
def modifiedSince (date : String) : Predicate :=
  ⟨Attribute.contentModificationDate ++ " >= $time.iso(" ++ date ++ ")", .built⟩

/-- Why a text is no predicate. -/
inductive Fault where
  /-- It is blank. -/
  | blank
  deriving DecidableEq

def Fault.detail : Fault → String
  | .blank => "predicate is empty"

def Fault.message (fault : Fault) : String := "Invalid predicate: " ++ fault.detail

/-- A text of the caller. -/
def raw (text : String) : Except Fault Predicate :=
  if text.toList.all Text.isBlank then .error .blank else .ok ⟨text, .raw⟩

end Predicate

end MetadataSearch
