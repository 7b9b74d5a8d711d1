import MetadataSearch.Path
import MetadataSearch.Proofs.Text.Encoding

/-!
# Paths that are texts

The path that a text spells is shown as that text (`text_ofText`). So what is shown of a path spells the
path again if the path is a text, and only then (`isText_iff`).

A text spells an absolute path if it starts with a slash (`isAbsolute_ofText`): a byte below 128 is always a
character of its own.
-/

namespace MetadataSearch.Path

/-- A text spells the path. -/
def IsText (path : Path) : Prop := ∃ s, ofText s = path

theorem text_ofText (s : String) : (ofText s).text = s := by
  rw [text, ofText, Text.decodeLossy_encode, String.ofList_toList]

theorem isText_iff {path : Path} : path.IsText ↔ ofText path.text = path := by
  constructor
  · rintro ⟨s, rfl⟩
    rw [text_ofText]
  · intro h
    exact ⟨path.text, h⟩

theorem IsText.append {path other : Path} (h : path.IsText) (hother : other.IsText) :
    IsText (path ++ other) := by
  obtain ⟨s, rfl⟩ := h
  obtain ⟨s', rfl⟩ := hother
  refine ⟨s ++ s', ?_⟩
  rw [ofText, String.toList_append, Text.encode_append]
  rfl

theorem IsText.text_ne_empty {path : Path} (h : path.IsText) (hne : path ≠ []) : path.text ≠ "" := by
  intro hempty
  have hspelled := isText_iff.1 h
  rw [hempty] at hspelled
  exact hne hspelled.symm

theorem isAbsolute_ofText {s : String} :
    isAbsolute (ofText s) = true ↔ s.toList.head? = some '/' := by
  have hslash : '/'.toNat < 128 := by decide
  rw [isAbsolute, beq_iff_eq]
  exact Text.head?_encode_iff hslash

end MetadataSearch.Path
