import MetadataSearch.Proofs.Query.NaturalText
import MetadataSearch.Proofs.Query.WildcardMeaning
import MetadataSearch.Proofs.Text.FinalSigma

/-!
# Texts that occur as they are

**Theorem (`found_of_occurrence`).** The query built for a text finds a content iff the lower case of the
text, between stars, stands for the lower case of the content. So it finds every content in which the text
occurs, if the capital sigmas of the text end words there iff they do so in the text alone. This is no
condition on a text without capital sigmas (`Text.keepsSigmas_of_not_mem`).

The stars make no difference to the lower case of the text (`Text.lowerCase_starred`), and where the text
keeps its sigmas the lower case of the content holds that of the text (`Text.exists_lowerCase_eq`). There it
stands for itself, whatever wildcards are in it (`Wildcard.standsFor_self`).

A capital sigma at the end of a word is written otherwise than one on its own, so a text may be missed where
it occurs (`not_standsFor_odos`).
-/

namespace MetadataSearch.Query

open Wildcard (StandsFor)

/-- The content of a source is compared with the text between stars, both in lower case. -/
theorem eval_starred {text : String} {pattern : TextPattern}
    (hpattern : TextPattern.ofText (starred text) ['c', 'd'] = .ok pattern) {source : Source}
    {content : String} (hsource : source Attribute.textContent = some (.string content)) :
    Filter.eval source (.compare ⟨Attribute.textContent, .eq, .text pattern⟩) = true ↔
      StandsFor ('*' :: (Text.lowerCase text.toList ++ ['*'])) (Text.lowerCase content.toList) := by
  obtain ⟨same, hsame, htext, hfold, hword⟩ :=
    TextPattern.exists_ofText (starred text) ['c', 'd'] rfl
  obtain rfl := Except.ok.inj (hpattern.symm.trans hsame)
  have heval : Filter.eval source (.compare ⟨Attribute.textContent, .eq, .text pattern⟩) =
      pattern.accepts content.toList := by
    rw [Filter.eval, Comparison.eval, hsource]
    rfl
  have hlower : pattern.text = '*' :: (Text.lowerCase text.toList ++ ['*']) :=
    htext.trans (Text.lowerCase_starred text.toList)
  simpa [heval, hlower, hword, TextPattern.fold, hfold] using
    pattern.accepts_iff

/-- Between stars a text stands for all that holds it. -/
theorem standsFor_of_infix (text left right : List Char) :
    StandsFor ('*' :: (text ++ ['*'])) (left ++ (text ++ right)) :=
  .star left (Wildcard.standsFor_append_iff.2
    ⟨text, right, rfl, Wildcard.standsFor_self text, Wildcard.standsFor_stars 0 right⟩)

/-- **A text is found where it occurs and keeps its sigmas.** -/
theorem found_of_occurrence (now : Instant) (text : String) :
    ∃ filter, parse now (Predicate.naturalText text).text = .ok filter ∧
      ∀ (source : Source) (content : String),
        source Attribute.textContent = some (.string content) →
        (filter.eval source = true ↔
          StandsFor ('*' :: (Text.lowerCase text.toList ++ ['*'])) (Text.lowerCase content.toList)) ∧
        ∀ before behind, content.toList = before ++ text.toList ++ behind →
          Text.KeepsSigmas before text.toList behind → filter.eval source = true := by
  obtain ⟨pattern, hpattern, -⟩ := TextPattern.exists_ofText (starred text) ['c', 'd'] rfl
  refine ⟨_, parse_starred now hpattern, ?_⟩
  intro source content hsource
  have heval := eval_starred hpattern hsource
  refine ⟨heval, ?_⟩
  intro before behind hcontent hsigmas
  obtain ⟨left, right, hlower⟩ := Text.exists_lowerCase_eq hsigmas
  rw [heval, hcontent, hlower]
  exact standsFor_of_infix _ left right

/-! ## A word that ends in a sigma -/

theorem keepsSigmas_odos : Text.KeepsSigmas ['Ο'] "ΔΟΣ*".toList [' ', '1'] := by
  intro front rest hsplit
  have honly : ['Δ', 'Ο'] = front ∧ 'Σ' = 'Σ' ∧ ['*'] = rest :=
    (List.append_cons_inj_of_notMem (by decide) (by decide)).1 hsplit
  obtain ⟨rfl, -, rfl⟩ := honly
  decide +kernel

/-- One capital sigma has another lower case than the last one of a word. -/
theorem not_standsFor_odos :
    ¬ StandsFor ('*' :: (Text.lowerCase "Σ".toList ++ ['*'])) (Text.lowerCase "ΟΔΟΣ".toList) := by
  have hsigma : Text.lowerCase "Σ".toList = ['σ'] := by decide +kernel
  have hcontent : Text.lowerCase "ΟΔΟΣ".toList = ['ο', 'δ', 'ο', 'ς'] := by decide +kernel
  have hfits : (Wildcard.Matcher.contains ['σ']).Fits ['*', 'σ', '*'] := ⟨rfl, rfl, rfl, rfl⟩
  rw [hsigma, hcontent]
  intro hstands
  have haccepts := (Wildcard.Matcher.accepts_iff hfits).2 hstands
  exact absurd haccepts (by decide)

/-- The word is found with its beginning cut off and a wildcard behind it. Its last letter alone is not
found, although it occurs. -/
theorem found_of_occurrence_odos :
    let source (content : String) : Source := fun _ => some (.string content)
    "ΟΔΟΣ* 1".toList = ['Ο'] ++ "ΔΟΣ*".toList ++ [' ', '1'] ∧
      Text.KeepsSigmas ['Ο'] "ΔΟΣ*".toList [' ', '1'] ∧
      (∃ filter, parse ⟨0, 0⟩ (Predicate.naturalText "ΔΟΣ*").text = .ok filter ∧
        filter.eval (source "ΟΔΟΣ* 1") = true) ∧
      "ΟΔΟΣ".toList = ['Ο', 'Δ', 'Ο'] ++ "Σ".toList ++ [] ∧
      ∃ filter, parse ⟨0, 0⟩ (Predicate.naturalText "Σ").text = .ok filter ∧
        filter.eval (source "ΟΔΟΣ") = false := by
  intro source
  have hcontent : "ΟΔΟΣ* 1".toList = ['Ο'] ++ "ΔΟΣ*".toList ++ [' ', '1'] := rfl
  obtain ⟨found, hfound, heval⟩ := found_of_occurrence ⟨0, 0⟩ "ΔΟΣ*"
  obtain ⟨missed, hmissed, hexact⟩ := found_of_occurrence ⟨0, 0⟩ "Σ"
  refine ⟨hcontent, keepsSigmas_odos, ⟨found, hfound, ?_⟩, rfl, missed, hmissed, ?_⟩
  · exact (heval _ _ rfl).2 _ _ hcontent keepsSigmas_odos
  · rw [Bool.eq_false_iff]
    exact fun hhit => not_standsFor_odos ((hexact (source "ΟΔΟΣ") _ rfl).1.1 hhit)

end MetadataSearch.Query
