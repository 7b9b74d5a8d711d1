import MetadataSearch.Query.Filter

/-!
# Every pattern compiles

**Theorem (`read_globOf`).** The glob in which a pattern is spelled has exactly the tokens that the
pattern means: a star for any characters, once for a run of stars, a question mark for one, and every
other character for itself.

No two stars are adjacent in that glob, since after a star all further stars are left out
(`head?_globOf`), and a bracket only stands in a set of its own. Hence neither fault of a glob can
occur, and a text and its modifiers fail to be a pattern for an unknown modifier only
(`exists_ofText`).
-/

namespace MetadataSearch

namespace Wildcard

/-- What is left of a pattern means this, after a star or not. -/
def tokensOf (afterStar : Bool) : List Char → List Glob.Token
  | [] => []
  | c :: rest =>
    if c = '*' then if afterStar then tokensOf true rest else .anySequence :: tokensOf true rest
    else if c = '?' then .anyChar :: tokensOf false rest
    else if c = '[' ∨ c = ']' then .only c :: tokensOf false rest
    else .char c :: tokensOf false rest

/-- After a star no star follows. -/
theorem head?_globOf (pattern : List Char) : (globOf true pattern).head? ≠ some '*' := by
  induction pattern with
  | nil => exact fun h => by cases h
  | cons c rest ih =>
    rw [globOf]
    by_cases hstar : c = '*'
    · rw [if_pos hstar, if_pos rfl]
      exact ih
    · rw [if_neg hstar]
      by_cases hbracket : c = '[' ∨ c = ']'
      · rw [if_pos hbracket]
        exact fun h => absurd (Option.some.inj h) (by decide)
      · rw [if_neg hbracket]
        exact fun h => hstar (Option.some.inj h)

end Wildcard

namespace Glob

/-! ## Reading one token -/

theorem read_star {rest : List Char} (h : rest.head? ≠ some '*') :
    read ('*' :: rest) = (read rest).map (.anySequence :: ·) := by
  cases rest with
  | nil => rfl
  | cons c rest =>
    rw [read.eq_3]
    rintro tail heq
    exact h (congrArg some (List.cons.inj heq).1)

theorem read_only {c : Char} (rest : List Char) (h : c ≠ '!') :
    read ('[' :: c :: ']' :: rest) = (read rest).map (.only c :: ·) := by
  rw [read, if_neg h]

theorem read_char {c : Char} (rest : List Char) (hstar : c ≠ '*') (hmark : c ≠ '?')
    (hopen : c ≠ '[') : read (c :: rest) = (read rest).map (.char c :: ·) :=
  read.eq_7 c rest (fun _ heq _ => hstar heq) hstar hmark (fun _ _ heq _ => hopen heq) hopen

end Glob

namespace Wildcard

/-! ## Reading the glob of a pattern -/

/-- **The glob of a pattern means what the pattern means.** -/
theorem read_globOf (afterStar : Bool) (pattern : List Char) :
    Glob.read (globOf afterStar pattern) = .ok (tokensOf afterStar pattern) := by
  induction pattern generalizing afterStar with
  | nil => rfl
  | cons c rest ih =>
    rw [globOf, tokensOf]
    by_cases hstar : c = '*'
    · rw [if_pos hstar, if_pos hstar]
      cases afterStar with
      | true => exact ih true
      | false =>
        simp only [Bool.false_eq_true, if_false]
        rw [Glob.read_star (head?_globOf rest), ih true]
        rfl
    · rw [if_neg hstar, if_neg hstar]
      by_cases hbracket : c = '[' ∨ c = ']'
      · have hmark : c ≠ '?' := by rcases hbracket with rfl | rfl <;> decide
        have hplain : c ≠ '!' := by rcases hbracket with rfl | rfl <;> decide
        rw [if_pos hbracket, if_neg hmark, if_pos hbracket, Glob.read_only _ hplain, ih false]
        rfl
      · rw [if_neg hbracket, if_neg hbracket]
        rw [not_or] at hbracket
        by_cases hmark : c = '?'
        · subst hmark
          rw [if_pos rfl, Glob.read, ih false]
          rfl
        · rw [if_neg hmark, Glob.read_char _ hstar hmark hbracket.1, ih false]
          rfl

theorem exists_compile (pattern : List Char) : ∃ matcher, Matcher.compile pattern = .ok matcher := by
  rw [Matcher.compile, read_globOf]
  split
  · exact ⟨_, rfl⟩
  · split
    · exact ⟨_, rfl⟩
    · exact ⟨_, rfl⟩

/-- The matcher of a pattern. -/
def compiled (pattern : List Char) : { matcher // Matcher.compile pattern = .ok matcher } :=
  match h : Matcher.compile pattern with
  | .ok matcher => ⟨matcher, rfl⟩
  | .error fault => by
    have hnone : False := by
      obtain ⟨matcher, hmatcher⟩ := exists_compile pattern
      rw [h] at hmatcher
      cases hmatcher
    exact hnone.elim

end Wildcard

namespace Query.TextPattern

/-- Known modifiers make a pattern of every text. -/
theorem exists_ofText (text modifiers : List Char)
    (h : modifiers.find? (fun m => !(m == 'c' || m == 'w' || m == 'd')) = none) :
    ∃ pattern, ofText text modifiers = .ok pattern ∧
      pattern.text = (if modifiers.contains 'c' then Text.lowerCase text else text) ∧
      pattern.foldCase = modifiers.contains 'c' ∧ pattern.anyWord = modifiers.contains 'w' := by
  rw [ofText, h]
  obtain ⟨matcher, hmatcher⟩ :=
    Wildcard.exists_compile (if modifiers.contains 'c' then Text.lowerCase text else text)
  dsimp only
  split
  case h_1 fault hfault =>
    rw [hfault] at hmatcher
    cases hmatcher
  case h_2 other hother => exact ⟨_, rfl, rfl, rfl, rfl⟩

/-- The pattern of a text, in lower case if it folds case. -/
def known (text : List Char) (foldCase anyWord : Bool) : TextPattern :=
  let text := if foldCase then Text.lowerCase text else text
  let matcher := Wildcard.compiled text
  ⟨text, foldCase, anyWord, matcher.val, matcher.property⟩

/-- A pattern is known by its text and its two flags: the matcher is that of the text. -/
theorem eq_of_fields {p q : TextPattern} (htext : p.text = q.text) (hfold : p.foldCase = q.foldCase)
    (hword : p.anyWord = q.anyWord) : p = q := by
  have hmatcher : p.matcher = q.matcher := by
    have hcompiled := p.compiled
    rw [htext, q.compiled] at hcompiled
    exact (Except.ok.inj hcompiled).symm
  cases p
  cases q
  cases htext
  cases hfold
  cases hword
  cases hmatcher
  rfl

/-- Known modifiers fold case or compare with words, or do nothing. -/
theorem ofText_known (text modifiers : List Char) (h : ∀ m ∈ modifiers, m ∈ ['c', 'd', 'w']) :
    ofText text modifiers = .ok (known text (modifiers.contains 'c') (modifiers.contains 'w')) := by
  have hfind : modifiers.find? (fun m => !(m == 'c' || m == 'w' || m == 'd')) = none := by
    rw [List.find?_eq_none]
    intro m hm
    have hall : ['c', 'd', 'w'].all (fun m => m == 'c' || m == 'w' || m == 'd') = true := rfl
    rw [List.all_eq_true.1 hall m (h m hm)]
    decide
  obtain ⟨pattern, hpattern, htext, hfold, hword⟩ := exists_ofText text modifiers hfind
  rw [hpattern]
  exact congrArg Except.ok (eq_of_fields htext hfold hword)

end Query.TextPattern

end MetadataSearch
