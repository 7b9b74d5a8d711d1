/-!
# Sets of characters as ranges

A property of the Unicode standard is stored as the ascending list of the code point ranges that
have it, both ends included.
-/

namespace MetadataSearch.Text

abbrev CharRanges := List (Nat × Nat)

def CharRanges.contains (ranges : CharRanges) (c : Char) : Bool :=
  ranges.any fun (first, last) => first ≤ c.toNat && c.toNat ≤ last

end MetadataSearch.Text
