/-!
# Occurrences

`Text.occursIn` tells whether a text stands somewhere in another, without a gap.
-/

namespace MetadataSearch.Text

def occursIn (needle : List Char) : List Char → Bool
  | [] => needle.isEmpty
  | c :: rest => needle.isPrefixOf (c :: rest) || occursIn needle rest

/-- What follows a word at the front of a text is the text without the word. -/
theorem length_of_isPrefixOf? {word text rest : List Char}
    (h : List.isPrefixOf? word text = some rest) : text.length = word.length + rest.length := by
  induction word generalizing text with
  | nil =>
    have hrest : some text = some rest := h
    rw [Option.some.inj hrest, List.length_nil, Nat.zero_add]
  | cons c word ih =>
    cases text with
    | nil => cases h
    | cons d text =>
      have hword : (if c == d then List.isPrefixOf? word text else none) = some rest := h
      split at hword
      · rw [List.length_cons, List.length_cons, ih hword, Nat.add_right_comm]
      · cases hword

/-- A change of what was read does not change what is left. -/
theorem exists_of_map_fst {change : List Char → List Char} {read : Option (List Char × List Char)}
    {content rest : List Char}
    (h : read.map (fun (text, tail) => (change text, tail)) = some (content, rest)) :
    ∃ text, read = some (text, rest) := by
  obtain ⟨⟨text, tail⟩, hread, hrest⟩ := Option.map_eq_some_iff.1 h
  cases hrest
  exact ⟨text, hread⟩

end MetadataSearch.Text
