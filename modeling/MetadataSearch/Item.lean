import MetadataSearch.RawValue

/-!
# Items

An item is what an engine knows of one file: raw values by attribute name, in the order in which the
names were first set. Setting a name again replaces its value in place.

`Attribute` holds the names that have a meaning here.
-/

namespace MetadataSearch

namespace Attribute

def path : String := "kMDItemPath"
def fileName : String := "kMDItemFSName"
def displayName : String := "kMDItemDisplayName"
def fileSize : String := "kMDItemFSSize"
def contentType : String := "kMDItemContentType"
def contentTypeTree : String := "kMDItemContentTypeTree"
def contentModificationDate : String := "kMDItemContentModificationDate"
def fileChangeDate : String := "kMDItemFSContentChangeDate"
def contentCreationDate : String := "kMDItemContentCreationDate"
def fileCreationDate : String := "kMDItemFSCreationDate"
def textContent : String := "kMDItemTextContent"

end Attribute

structure Item where
  entries : Fields RawValue

namespace Item

def empty : Item := ⟨[]⟩

def isEmpty (item : Item) : Bool := item.entries.isEmpty

def set (item : Item) (name : String) (value : RawValue) : Item := ⟨item.entries.set name value⟩

def get? (item : Item) (name : String) : Option RawValue := item.entries.find? name

def names (item : Item) : List String := item.entries.names

/-- Sets the pairs one after another on an empty item. -/
def ofList (pairs : List (String × RawValue)) : Item :=
  pairs.foldl (fun item pair => item.set pair.1 pair.2) empty

/-- The typed attributes, by ascending names. -/
def attributes (item : Item) : Attributes :=
  Fields.ofList (item.entries.filterMap fun (name, raw) => raw.classify?.map (name, ·))

end Item

end MetadataSearch
