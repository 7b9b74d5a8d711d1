import MetadataSearch.Proofs.Query.Compiling
import MetadataSearch.Proofs.Query.Lexing
import MetadataSearch.Proofs.Query.Parsing

/-!
# Queries for a kind

**Theorem (`parse_ofKind`).** The query built for a kind is read as one comparison of the content type
tree with the identifier of the kind.

The identifiers hold nothing that is escaped in a string, so what is quoted is the escaped form of the
identifier, without modifiers.
-/

namespace MetadataSearch.Query

theorem toList_ofKind (kind : Kind) :
    (Predicate.ofKind kind).text.toList =
      equalsText ('k' :: "MDItemContentTypeTree".toList) kind.contentType.toList [] := by
  have hescape : Predicate.escape kind.contentType.toList = kind.contentType.toList := by
    cases kind <;> decide
  have hname : Attribute.contentTypeTree.toList = 'k' :: "MDItemContentTypeTree".toList := rfl
  have hopen : " == \"".toList = [' ', '=', '=', ' ', '"'] := rfl
  have hclose : "\"".toList = ['"'] := rfl
  rw [equalsText, hescape]
  simp only [Predicate.ofKind, String.toList_append, hname, hopen, hclose, List.append_assoc,
    List.cons_append, List.nil_append]

/-- **A kind is searched for by its identifier.** -/
theorem parse_ofKind (now : Instant) (kind : Kind) :
    ∃ pattern : TextPattern,
      parse now (Predicate.ofKind kind).text =
        .ok (.compare ⟨Attribute.contentTypeTree, .eq, .text pattern⟩) ∧
      pattern.text = kind.contentType.toList ∧ pattern.foldCase = false ∧ pattern.anyWord = false := by
  obtain ⟨pattern, hpattern, htext, hfold, hword⟩ :=
    TextPattern.exists_ofText kind.contentType.toList [] rfl
  obtain ⟨lexemes, hlex, htokens⟩ := @lex_equalsText now 'k'
    "MDItemContentTypeTree".toList _ _ _ (by decide) (by decide) (List.all_eq_true.1 rfl)
    (List.forall_mem_nil _) hpattern
  refine ⟨pattern, ?_, htext, hfold, hword⟩
  rw [parse, toList_ofKind, hlex]
  exact parseTokens_comparison htokens

end MetadataSearch.Query
