import MetadataSearch.Text.Utf8

/-!
# Paths

A path is a sequence of bytes with segments between slashes. A file system does not care whether they are
the bytes of a text. Empty segments and single dots say nothing about where a path leads;
`Path.segments` leaves them out.

- `Path.ofText` is the path that a text spells, `Path.text` is how a path is shown. A path that is no text
  is shown with replacement characters, and what is shown is then another path.
- `Path.fileName?` is the last segment, unless it is a double dot.
- `Path.extension?` is what follows the last dot of the file name, unless that dot is its first byte.
- `Path.join` appends a name.
- `Path.identity` is what two spellings share if they are the same path without a look at any file.
- `Path.isTooLong` marks the paths that nothing can be opened under, whatever they lead to.
-/

namespace MetadataSearch

/-- The bytes of a segment of a path. -/
abbrev FileName := List UInt8

abbrev Path := List UInt8

namespace Path

abbrev slash : UInt8 := 0x2F

abbrev dot : UInt8 := 0x2E

/-! ## Texts -/

/-- The path that a text spells. -/
def ofText (text : String) : Path := Text.encode text.toList

/-- The text that a path is shown as. -/
def text (path : Path) : String := String.ofList (Text.decodeLossy path)

/-! ## Segments -/

/-- The number of bytes from which on a path is too long. -/
def sizeLimit : Nat := 4096

/-- Whether the spelling of a path is too long to look anything up under it. -/
def isTooLong (path : Path) : Bool := sizeLimit ≤ path.length

def isAbsolute (path : Path) : Bool := path.head? == some slash

/-- The parts between slashes. -/
def parts (path : Path) : List FileName := path.splitOn slash

/-- The parts that say something. -/
def segments (path : Path) : List FileName :=
  (parts path).filter fun part => part != [] && part != [dot]

def fileName? (path : Path) : Option FileName :=
  (segments path).getLast?.filter fun name => name != [dot, dot]

/-- The extension of a file name. -/
def extensionOf? (name : FileName) : Option (List UInt8) :=
  let reversed := name.reverse
  match reversed.dropWhile (· != dot) with
  | _ :: _ :: _ => some (reversed.takeWhile (· != dot)).reverse
  | _ => none

def extension? (path : Path) : Option (List UInt8) := (fileName? path).bind extensionOf?

/-- The path of an entry of the directory at a path. -/
def join (path : Path) (name : FileName) : Path :=
  if path.getLast? == some slash then path ++ name else path ++ slash :: name

/-- The segments, with a mark for an absolute path and for a relative one that starts with a dot. -/
def identity (path : Path) : List FileName :=
  if isAbsolute path then [slash] :: segments path
  else if (parts path).head? == some [dot] then [dot] :: segments path
  else segments path

end Path

end MetadataSearch
