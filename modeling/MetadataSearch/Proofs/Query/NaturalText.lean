import MetadataSearch.Proofs.Query.Compiling
import MetadataSearch.Proofs.Query.Lexing
import MetadataSearch.Proofs.Query.Parsing

/-!
# Queries for a text

**Theorem (`parse_naturalText`).** Whatever a text holds, the query built for it is read as one
comparison of the text content with that text between stars.

The whole text stands in one string: the stars need no escape, so what is quoted is the escaped form
of the text between stars, and `scanQuoted?_escapeIn` gives it back. The string is followed by its two
modifiers, so it is a pattern (`TextPattern.exists_ofText`), and the query has three tokens
(`lex_naturalText`), which are a tree of one comparison.
-/

namespace MetadataSearch.Query

/-- The text between stars. -/
def starred (text : String) : List Char := '*' :: (text.toList ++ ['*'])

theorem toList_naturalText (text : String) :
    (Predicate.naturalText text).text.toList =
      equalsText ('k' :: "MDItemTextContent".toList) (starred text) ['c', 'd'] := by
  have hescape : Predicate.escape (starred text) = '*' :: (Predicate.escape text.toList ++ ['*']) := by
    rw [starred, Predicate.escape, if_neg (by decide), Predicate.escape_append]
    rfl
  have hname : Attribute.textContent.toList = 'k' :: "MDItemTextContent".toList := rfl
  have hopen : " == \"*".toList = [' ', '=', '=', ' ', '"', '*'] := rfl
  have hclose : "*\"cd".toList = ['*', '"', 'c', 'd'] := rfl
  rw [equalsText, hescape]
  simp only [Predicate.naturalText, String.toList_append, String.toList_ofList, hname, hopen, hclose,
    List.append_assoc, List.cons_append, List.nil_append]

/-- The tokens are a name, a comparator and one string. -/
theorem lex_naturalText (now : Instant) (text : String) {pattern : TextPattern}
    (h : TextPattern.ofText (starred text) ['c', 'd'] = .ok pattern) :
    ∃ lexemes, lex now (Predicate.naturalText text).text.toList = .ok lexemes ∧
      lexemes.map Lexeme.token =
        [.name Attribute.textContent, .comparator .eq, .value (.text pattern)] := by
  rw [toList_naturalText]
  exact lex_equalsText now (by decide) (by decide) (List.all_eq_true.1 rfl) (List.all_eq_true.1 rfl) h

/-- The query compares with whatever pattern the text between stars is. -/
theorem parse_starred (now : Instant) {text : String} {pattern : TextPattern}
    (h : TextPattern.ofText (starred text) ['c', 'd'] = .ok pattern) :
    parse now (Predicate.naturalText text).text =
      .ok (.compare ⟨Attribute.textContent, .eq, .text pattern⟩) := by
  obtain ⟨lexemes, hlex, htokens⟩ := lex_naturalText now text h
  rw [parse, hlex]
  exact parseTokens_comparison htokens

/-- **A text is searched for as it is.** -/
theorem parse_naturalText (now : Instant) (text : String) :
    ∃ pattern : TextPattern,
      parse now (Predicate.naturalText text).text =
        .ok (.compare ⟨Attribute.textContent, .eq, .text pattern⟩) ∧
      pattern.text = Text.lowerCase ('*' :: (text.toList ++ ['*'])) ∧ pattern.foldCase = true ∧
      pattern.anyWord = false := by
  obtain ⟨pattern, hpattern, htext, hfold, hword⟩ :=
    TextPattern.exists_ofText (starred text) ['c', 'd'] rfl
  exact ⟨pattern, parse_starred now hpattern, htext, hfold, hword⟩

end MetadataSearch.Query
