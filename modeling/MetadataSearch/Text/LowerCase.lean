import MetadataSearch.Text.LowerCase.Ranges

/-!
# Lower case

`lowerCase` is the full lower case mapping of the Unicode standard without language rules. Two
characters are special: the dotted capital I becomes two characters, and a capital sigma becomes the
final form at the end of a word, that is after a cased character and not before one, where
characters that case ignores do not count.
-/

namespace MetadataSearch.Text

/-- The Unicode property Cased. -/
def isCased (c : Char) : Bool := casedRanges.contains c

/-- The Unicode property Case_Ignorable. -/
def isCaseIgnorable (c : Char) : Bool := caseIgnorableRanges.contains c

/-- Whether the run maps this code point. -/
def LowerRun.covers (run : LowerRun) (n : Nat) : Bool :=
  run.first ≤ n && n ≤ run.last && (n - run.first) % run.step == 0

/-- The lower case of a character where no neighbour matters. -/
def lowerChar (c : Char) : List Char :=
  if c.toNat < 128 then [c.toLower]
  else if c == '\u0130' then ['i', '\u0307']
  else
    match lowerRuns.find? fun run => run.covers c.toNat with
    | some run => [Char.ofNat (run.image + (c.toNat - run.first))]
    | none => [c]

/-- Whether the first character that case does not ignore is cased. -/
def startsCased (text : List Char) : Bool :=
  match text.dropWhile isCaseIgnorable with
  | c :: _ => isCased c
  | [] => false

/-- The lower case of a text that follows the characters `before`, nearest first. -/
def lowerAfter (before : List Char) : List Char → List Char
  | [] => []
  | c :: rest =>
    let image :=
      if c == 'Σ' then [if startsCased before && !startsCased rest then 'ς' else 'σ']
      else lowerChar c
    image ++ lowerAfter (c :: before) rest

def lowerCase (text : List Char) : List Char := lowerAfter [] text

end MetadataSearch.Text
