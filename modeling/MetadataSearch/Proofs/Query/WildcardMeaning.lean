import Mathlib.Data.List.TakeWhile
import MetadataSearch.Proofs.Outcome
import MetadataSearch.Proofs.Query.Compiling
import MetadataSearch.Proofs.Text.Occurrences

/-!
# What a pattern stands for

`Wildcard.StandsFor` is the language of a pattern: a star stands for any characters, a question mark for
one, and every other character for itself.

**Theorem (`Query.TextPattern.exists_accepts_iff`).** Every text is a pattern, and a value equals it iff
the text stands for the value. All ways to match that fit the text agree on this.

A pattern is matched in one of three ways. Without wildcards it stands for itself only
(`standsFor_plain_iff`). Plain text between stars stands for what holds it, since a pattern in two parts
stands for values in two parts (`standsFor_append_iff`). Else the pattern is spelled as a glob. A glob
matches what its tokens match one after another (`Glob.accepts_iff`), although the table that it is
computed with goes through the tokens from their end; and the tokens of the glob are those of the
pattern but for stars that follow a star, which add nothing (`matches_tokensOf`).
-/

namespace MetadataSearch

namespace Glob

/-! ## Matching token by token -/

/-- The tokens match the value, one after another. -/
inductive Matches : List Token → List Char → Prop
  | nil : Matches [] []
  | sequence {tokens : List Token} {value : List Char} (chars : List Char)
      (hrest : Matches tokens value) : Matches (.anySequence :: tokens) (chars ++ value)
  | one {token : Token} {tokens : List Token} {c : Char} {value : List Char}
      (htakes : token.takes c = true) (hrest : Matches tokens value) :
      Matches (token :: tokens) (c :: value)

theorem matches_nil_iff {value : List Char} : Matches [] value ↔ value = [] := by
  constructor
  · intro h
    cases h
    rfl
  · rintro rfl
    exact .nil

theorem matches_sequence_iff {tokens : List Token} {value : List Char} :
    Matches (.anySequence :: tokens) value ↔ ∃ rest, rest <:+ value ∧ Matches tokens rest := by
  constructor
  · intro h
    cases h with
    | sequence chars hrest => exact ⟨_, List.suffix_append _ _, hrest⟩
    | one htakes => cases htakes
  · rintro ⟨rest, ⟨chars, rfl⟩, hrest⟩
    exact .sequence chars hrest

theorem matches_one_iff {token : Token} (hone : token ≠ .anySequence) {tokens : List Token}
    {value : List Char} :
    Matches (token :: tokens) value ↔
      ∃ c rest, value = c :: rest ∧ token.takes c = true ∧ Matches tokens rest := by
  constructor
  · intro h
    cases h with
    | sequence => exact absurd rfl hone
    | one htakes hrest => exact ⟨_, _, rfl, htakes, hrest⟩
  · rintro ⟨c, rest, rfl, htakes, hrest⟩
    exact .one htakes hrest

/-! ## The table -/

theorem length_anyLater (marks : List Bool) : (anyLater marks).length = marks.length := by
  induction marks with
  | nil => rfl
  | cons mark marks ih => simpa [anyLater] using ih

theorem length_reach (value : List Char) (tokens : List Token) :
    (reach value tokens).length = value.length + 1 := by
  induction tokens with
  | nil => simp [reach]
  | cons token tokens ih =>
    by_cases hsequence : token = .anySequence <;> simp [reach, hsequence, length_anyLater, ih]

theorem exists_reach_eq_cons (value : List Char) (tokens : List Token) :
    ∃ marks, reach value tokens = accepts tokens value :: marks := by
  have hne : reach value tokens ≠ [] := by
    intro hnil
    simpa [hnil] using length_reach value tokens
  obtain ⟨mark, marks, hmarks⟩ := List.exists_cons_of_ne_nil hne
  exact ⟨marks, by simp [accepts, hmarks]⟩

/-- The table of a value is that of its tail with one mark more in front, which is for the value. -/
theorem reach_cons (c : Char) (value : List Char) (tokens : List Token) :
    reach (c :: value) tokens = accepts tokens (c :: value) :: reach value tokens := by
  have hfront : ∃ mark, reach (c :: value) tokens = mark :: reach value tokens := by
    induction tokens with
    | nil => exact ⟨false, rfl⟩
    | cons token tokens ih =>
      obtain ⟨mark, hmark⟩ := ih
      by_cases hsequence : token = .anySequence
      · simp [reach, hsequence, hmark, anyLater]
      · obtain ⟨marks, hmarks⟩ := exists_reach_eq_cons value tokens
        simp [reach, hsequence, hmark, hmarks]
  obtain ⟨mark, hmark⟩ := hfront
  simp [accepts, hmark]

/-! ## The equations of a match -/

theorem accepts_nil (value : List Char) : accepts [] value = value.isEmpty := by
  cases value <;> rfl

theorem accepts_sequence_nil (tokens : List Token) :
    accepts (.anySequence :: tokens) [] = accepts tokens [] := by
  obtain ⟨marks, hmarks⟩ := exists_reach_eq_cons [] tokens
  have hlength := length_reach [] tokens
  obtain rfl : marks = [] := by simpa [hmarks] using hlength
  rw [accepts, reach, if_pos rfl, hmarks]
  simp [anyLater]

theorem accepts_sequence_cons (tokens : List Token) (c : Char) (value : List Char) :
    accepts (.anySequence :: tokens) (c :: value) =
      (accepts tokens (c :: value) || accepts (.anySequence :: tokens) value) := by
  rw [accepts, reach, if_pos rfl, reach_cons]
  simp [accepts, reach, anyLater]

theorem accepts_one_nil {token : Token} (hone : token ≠ .anySequence) (tokens : List Token) :
    accepts (token :: tokens) [] = false := by
  simp [accepts, reach, hone]

theorem accepts_one_cons {token : Token} (hone : token ≠ .anySequence) (tokens : List Token) (c : Char)
    (value : List Char) :
    accepts (token :: tokens) (c :: value) = (token.takes c && accepts tokens value) := by
  obtain ⟨marks, hmarks⟩ := exists_reach_eq_cons value tokens
  rw [accepts, reach, if_neg hone, reach_cons, hmarks]
  rfl

/-- **A glob matches what its tokens match.** -/
theorem accepts_iff {tokens : List Token} {value : List Char} :
    accepts tokens value = true ↔ Matches tokens value := by
  induction tokens generalizing value with
  | nil => rw [accepts_nil, List.isEmpty_iff, matches_nil_iff]
  | cons token tokens ih =>
    by_cases hsequence : token = .anySequence
    · subst hsequence
      induction value with
      | nil => simp [accepts_sequence_nil, ih, matches_sequence_iff]
      | cons c value ihvalue =>
        rw [accepts_sequence_cons, Bool.or_eq_true, ih, ihvalue, matches_sequence_iff,
          matches_sequence_iff]
        simp [List.suffix_cons_iff, or_and_right, exists_or]
    · cases value with
      | nil => simp [accepts_one_nil hsequence, matches_one_iff hsequence]
      | cons c value => simp [accepts_one_cons hsequence, matches_one_iff hsequence, ih]

end Glob

namespace Wildcard

/-! ## The language of a pattern -/

/-- The pattern stands for the value: a star for any characters, a question mark for one, and every
other character for itself. -/
inductive StandsFor : List Char → List Char → Prop
  | nil : StandsFor [] []
  | star {pattern value : List Char} (chars : List Char) (hrest : StandsFor pattern value) :
      StandsFor ('*' :: pattern) (chars ++ value)
  | mark {pattern value : List Char} (c : Char) (hrest : StandsFor pattern value) :
      StandsFor ('?' :: pattern) (c :: value)
  | char {pattern value : List Char} {c : Char} (hplain : isWild c = false)
      (hrest : StandsFor pattern value) : StandsFor (c :: pattern) (c :: value)

theorem standsFor_nil_iff {value : List Char} : StandsFor [] value ↔ value = [] := by
  constructor
  · intro h
    cases h
    rfl
  · rintro rfl
    exact .nil

theorem standsFor_star_iff {pattern value : List Char} :
    StandsFor ('*' :: pattern) value ↔ ∃ rest, rest <:+ value ∧ StandsFor pattern rest := by
  constructor
  · intro h
    cases h with
    | star chars hrest => exact ⟨_, List.suffix_append _ _, hrest⟩
    | char hplain => cases hplain
  · rintro ⟨rest, ⟨chars, rfl⟩, hrest⟩
    exact .star chars hrest

/-- A star that follows a star adds nothing. -/
theorem standsFor_star_star_iff {pattern value : List Char} :
    StandsFor ('*' :: '*' :: pattern) value ↔ StandsFor ('*' :: pattern) value := by
  constructor
  · intro h
    obtain ⟨rest, hvalue, hstar⟩ := standsFor_star_iff.1 h
    obtain ⟨tail, hrest, htail⟩ := standsFor_star_iff.1 hstar
    exact standsFor_star_iff.2 ⟨tail, hrest.trans hvalue, htail⟩
  · intro h
    exact standsFor_star_iff.2 ⟨value, List.suffix_rfl, h⟩

/-- What is no star stands for one character. -/
theorem standsFor_one_iff {c : Char} (hstar : c ≠ '*') {pattern value : List Char} :
    StandsFor (c :: pattern) value ↔
      ∃ d rest, value = d :: rest ∧ (c = '?' ∨ d = c) ∧ StandsFor pattern rest := by
  constructor
  · intro h
    cases h with
    | star => exact absurd rfl hstar
    | mark d hrest => exact ⟨d, _, rfl, .inl rfl, hrest⟩
    | char _ hrest => exact ⟨c, _, rfl, .inr rfl, hrest⟩
  · rintro ⟨d, rest, rfl, hone, hrest⟩
    by_cases hmark : c = '?'
    · subst hmark
      exact .mark d hrest
    · obtain rfl := hone.resolve_left hmark
      exact .char (by simp [isWild, hstar, hmark]) hrest

/-- A pattern in two parts stands for the values in two parts. -/
theorem standsFor_append_iff {first second value : List Char} :
    StandsFor (first ++ second) value ↔
      ∃ front back, value = front ++ back ∧ StandsFor first front ∧ StandsFor second back := by
  constructor
  · intro h
    induction first generalizing value with
    | nil => exact ⟨[], value, rfl, .nil, h⟩
    | cons c first ih =>
      rw [List.cons_append] at h
      cases h with
      | star chars hrest =>
        obtain ⟨front, back, rfl, hfirst, hsecond⟩ := ih hrest
        exact ⟨chars ++ front, back, (List.append_assoc _ _ _).symm, .star chars hfirst, hsecond⟩
      | mark d hrest =>
        obtain ⟨front, back, rfl, hfirst, hsecond⟩ := ih hrest
        exact ⟨d :: front, back, rfl, .mark d hfirst, hsecond⟩
      | char hplain hrest =>
        obtain ⟨front, back, rfl, hfirst, hsecond⟩ := ih hrest
        exact ⟨c :: front, back, rfl, .char hplain hfirst, hsecond⟩
  · rintro ⟨front, back, rfl, hfirst, hsecond⟩
    induction hfirst with
    | nil => exact hsecond
    | star chars _ ih =>
      rw [List.append_assoc]
      exact .star chars ih
    | mark c _ ih => exact .mark c ih
    | char hplain _ ih => exact .char hplain ih

/-- A pattern without wildcards stands for itself. -/
theorem standsFor_plain_iff {pattern value : List Char} (hplain : pattern.any isWild = false) :
    StandsFor pattern value ↔ value = pattern := by
  induction pattern generalizing value with
  | nil => exact standsFor_nil_iff
  | cons c pattern ih =>
    simp only [List.any_cons, isWild, Bool.or_eq_false_iff, beq_eq_false_iff_ne] at hplain
    simp [standsFor_one_iff hplain.1.1, hplain.1.2, ih hplain.2]

/-- Read as a pattern, every text stands for itself. -/
theorem standsFor_self (text : List Char) : StandsFor text text := by
  induction text with
  | nil => exact .nil
  | cons c text ih =>
    by_cases hstar : c = '*'
    · subst hstar
      exact .star ['*'] ih
    · exact (standsFor_one_iff hstar).2 ⟨c, text, rfl, .inr rfl, ih⟩

/-- Stars stand for everything. -/
theorem standsFor_stars (n : Nat) (value : List Char) :
    StandsFor (List.replicate (n + 1) '*') value := by
  induction n with
  | zero =>
    have hstar : StandsFor ['*'] (value ++ []) := .star value .nil
    rwa [List.append_nil] at hstar
  | succ n ih => exact .star [] ih

/-! ## Plain text between stars -/

/-- Only stars are cut off the ends of a pattern. -/
theorem exists_eq_trimStars (pattern : List Char) : ∃ m n,
    pattern = List.replicate m '*' ++ (trimStars pattern ++ List.replicate n '*') := by
  have hstars : ∀ text : List Char, ∃ n, text = List.replicate n '*' ++ text.dropWhile (· == '*') := by
    intro text
    refine ⟨(text.takeWhile (· == '*')).length, ?_⟩
    have hall : text.takeWhile (· == '*') = List.replicate (text.takeWhile (· == '*')).length '*' :=
      List.eq_replicate_of_mem fun c hc => by simpa using List.mem_takeWhile_imp hc
    rw [← hall, List.takeWhile_append_dropWhile]
  obtain ⟨m, hfront⟩ := hstars pattern
  obtain ⟨n, hback⟩ := hstars (pattern.dropWhile (· == '*')).reverse
  refine ⟨m, n, ?_⟩
  have hinner : pattern.dropWhile (· == '*') = trimStars pattern ++ List.replicate n '*' := by
    rw [trimStars, ← List.reverse_inj, List.reverse_append, List.reverse_reverse,
      List.reverse_replicate]
    exact hback
  rw [← hinner]
  exact hfront

theorem standsFor_starred_iff {needle value : List Char} (m n : Nat)
    (hplain : needle.any isWild = false) :
    StandsFor (List.replicate (m + 1) '*' ++ (needle ++ List.replicate (n + 1) '*')) value ↔
      needle <:+: value := by
  constructor
  · intro h
    obtain ⟨front, rest, rfl, -, hrest⟩ := standsFor_append_iff.1 h
    obtain ⟨middle, back, rfl, hmiddle, -⟩ := standsFor_append_iff.1 hrest
    obtain rfl := (standsFor_plain_iff hplain).1 hmiddle
    exact ⟨front, back, by simp⟩
  · rintro ⟨front, back, rfl⟩
    have hneedle : StandsFor (needle ++ List.replicate (n + 1) '*') (needle ++ back) :=
      standsFor_append_iff.2
        ⟨needle, back, rfl, (standsFor_plain_iff hplain).2 rfl, standsFor_stars n back⟩
    exact standsFor_append_iff.2
      ⟨front, needle ++ back, List.append_assoc _ _ _, standsFor_stars m front, hneedle⟩

/-- **Between stars at both ends** plain text stands for what holds it. -/
theorem standsFor_iff_infix {pattern value : List Char} (hfirst : pattern.head? = some '*')
    (hlast : pattern.getLast? = some '*') (hplain : (trimStars pattern).any isWild = false) :
    StandsFor pattern value ↔ trimStars pattern <:+: value := by
  obtain ⟨m, n, hpattern⟩ := exists_eq_trimStars pattern
  generalize trimStars pattern = needle at hpattern hplain ⊢
  by_cases hneedle : needle = []
  · -- The pattern has stars only; at least one of them, or it would not start with a star.
    subst hneedle
    rw [List.nil_append, List.replicate_append_replicate] at hpattern
    cases hcount : m + n with
    | zero => simp [hpattern, hcount] at hfirst
    | succ k =>
      rw [hpattern, hcount]
      simp [standsFor_stars]
  · have hends : ∀ c ∈ needle, c ≠ '*' := by
      rintro c hc rfl
      exact List.any_eq_false.1 hplain _ hc rfl
    cases m with
    | zero =>
      obtain ⟨first, rest, rfl⟩ := List.exists_cons_of_ne_nil hneedle
      simp [hpattern, hends first] at hfirst
    | succ m =>
      cases n with
      | zero =>
        rw [hpattern, List.replicate_zero, List.append_nil, List.getLast?_append_of_ne_nil _ hneedle]
          at hlast
        exact absurd rfl (hends '*' (List.mem_of_getLast? hlast))
      | succ n =>
        rw [hpattern]
        exact standsFor_starred_iff m n hplain

/-! ## The tokens of a pattern -/

/-- What is no star becomes one token, be it after a star or not. -/
theorem exists_token {c : Char} (hstar : c ≠ '*') : ∃ token, token ≠ Glob.Token.anySequence ∧
    (∀ afterStar rest, tokensOf afterStar (c :: rest) = token :: tokensOf false rest) ∧
    ∀ d, token.takes d = true ↔ c = '?' ∨ d = c := by
  by_cases hmark : c = '?'
  · exact ⟨.anyChar, by decide, by simp [tokensOf, hmark], by simp [Glob.Token.takes, hmark]⟩
  · by_cases hbracket : c = '[' ∨ c = ']'
    · exact ⟨.only c, by simp, by simp [tokensOf, hstar, hmark, hbracket],
        by simp [Glob.Token.takes, hmark]⟩
    · exact ⟨.char c, by simp, by simp [tokensOf, hstar, hmark, hbracket],
        by simp [Glob.Token.takes, hmark]⟩

/-- **The tokens match what the pattern stands for.** Stars that follow a star add nothing. -/
theorem matches_tokensOf (pattern : List Char) :
    (∀ value, Glob.Matches (tokensOf false pattern) value ↔ StandsFor pattern value) ∧
      ∀ value, Glob.Matches (.anySequence :: tokensOf true pattern) value ↔
        StandsFor ('*' :: pattern) value := by
  induction pattern with
  | nil =>
    have hnil : ∀ value, Glob.Matches [] value ↔ StandsFor [] value := fun value =>
      Glob.matches_nil_iff.trans standsFor_nil_iff.symm
    exact ⟨hnil, fun value => by simp [tokensOf, Glob.matches_sequence_iff, standsFor_star_iff, hnil]⟩
  | cons c pattern ih =>
    by_cases hstar : c = '*'
    · subst hstar
      refine ⟨by simpa [tokensOf] using ih.2, fun value => ?_⟩
      rw [standsFor_star_star_iff]
      exact ih.2 value
    · obtain ⟨token, hone, htokens, htakes⟩ := exists_token hstar
      have hsame : ∀ value, Glob.Matches (token :: tokensOf false pattern) value ↔
          StandsFor (c :: pattern) value := by
        intro value
        simp [Glob.matches_one_iff hone, standsFor_one_iff hstar, htakes, ih.1]
      exact ⟨by simpa [htokens] using hsame,
        fun value => by simp [htokens, Glob.matches_sequence_iff, standsFor_star_iff, hsame]⟩

/-! ## Ways to match -/

/-- The ways to match that fit a pattern. `Matcher.compile` picks one of them. -/
def Matcher.Fits (pattern : List Char) : Matcher → Prop
  | .exact => pattern.any isWild = false
  | .contains needle => pattern.head? = some '*' ∧ pattern.getLast? = some '*' ∧
      trimStars pattern = needle ∧ needle.any isWild = false
  | .glob tokens => Glob.read (globOf false pattern) = .ok tokens

theorem Matcher.fits_of_compile {pattern : List Char} {matcher : Matcher}
    (h : compile pattern = .ok matcher) : matcher.Fits pattern := by
  rw [compile] at h
  split at h
  case isTrue hplain =>
    obtain rfl := Except.ok.inj h
    simpa [Fits] using hplain
  case isFalse =>
    split at h
    case isTrue hstars =>
      obtain rfl := Except.ok.inj h
      simp only [Bool.and_eq_true, beq_iff_eq, Bool.not_eq_true'] at hstars
      exact ⟨hstars.1.1.2, hstars.1.2, rfl, hstars.2⟩
    case isFalse =>
      obtain ⟨tokens, htokens, rfl⟩ := Outcome.map_eq_ok.1 h
      exact htokens

/-- **Every way that fits a pattern accepts what the pattern stands for.** -/
theorem Matcher.accepts_iff {pattern value : List Char} {matcher : Matcher}
    (h : matcher.Fits pattern) : matcher.accepts pattern value = true ↔ StandsFor pattern value := by
  cases matcher with
  | exact => rw [accepts, beq_iff_eq, standsFor_plain_iff h]
  | contains needle =>
    obtain ⟨hfirst, hlast, rfl, hplain⟩ := h
    rw [accepts, Text.occursIn_iff, standsFor_iff_infix hfirst hlast hplain]
  | glob tokens =>
    obtain rfl := Except.ok.inj ((read_globOf false pattern).symm.trans h)
    rw [accepts, Glob.accepts_iff, (matches_tokensOf pattern).1]

end Wildcard

namespace Query.TextPattern

open Wildcard (Matcher StandsFor)

/-- A pattern accepts the values that its text stands for, after folding, and with `anyWord` those of
which it stands for a word. -/
theorem accepts_iff (pattern : TextPattern) {value : List Char} :
    pattern.accepts value = true ↔
      StandsFor pattern.text (pattern.fold value) ∨
        pattern.anyWord = true ∧
          ∃ word ∈ Text.words (pattern.fold value), StandsFor pattern.text word := by
  have hfits := Matcher.fits_of_compile pattern.compiled
  simp [accepts, Matcher.accepts_iff hfits]

/-- **Every text is a pattern, and a value equals it iff the text stands for the value,** whichever of
the ways that fit the text is taken. -/
theorem exists_accepts_iff (text : List Char) :
    ∃ pattern, ofText text [] = .ok pattern ∧
      (∀ (name : String) (source : Source) (value : String), source name = some (.string value) →
        (Comparison.eval ⟨name, .eq, .text pattern⟩ source = true ↔ StandsFor text value.toList)) ∧
      ∀ matcher : Matcher, matcher.Fits text → ∀ value,
        (matcher.accepts text value = true ↔ StandsFor text value) := by
  obtain ⟨pattern, hpattern, htext, hfold, hword⟩ := exists_ofText text [] rfl
  refine ⟨pattern, hpattern, ?_, fun matcher hfits value => Matcher.accepts_iff hfits⟩
  intro name source value hvalue
  have heval : Comparison.eval ⟨name, .eq, .text pattern⟩ source = pattern.accepts value.toList := by
    rw [Comparison.eval, hvalue]
    rfl
  simpa [heval, htext, hword, fold, hfold] using pattern.accepts_iff

/-- A bracket between stars can be matched as plain text and as a glob. -/
theorem exists_accepts_iff_bracket :
    (Matcher.contains ['[']).Fits "*[*".toList ∧
      (Matcher.glob [.anySequence, .only '[', .anySequence]).Fits "*[*".toList ∧
      ∃ pattern, ofText "*[*".toList [] = .ok pattern ∧
        Comparison.eval ⟨"kMDItemFSName", .eq, .text pattern⟩ (fun _ => some (.string "x[/")) = true ∧
        (Matcher.contains ['[']).accepts "*[*".toList "x[/".toList = true ∧
        (Matcher.glob [.anySequence, .only '[', .anySequence]).accepts "*[*".toList "x[/".toList = true := by
  have hcontains : (Matcher.contains ['[']).Fits "*[*".toList := ⟨rfl, rfl, rfl, rfl⟩
  have hglob : (Matcher.glob [.anySequence, .only '[', .anySequence]).Fits "*[*".toList := rfl
  have hstands : StandsFor "*[*".toList "x[/".toList := .star ['x'] (.char rfl (.star ['/'] .nil))
  obtain ⟨pattern, hpattern, heval, hfits⟩ := exists_accepts_iff "*[*".toList
  exact ⟨hcontains, hglob, pattern, hpattern, (heval _ _ _ rfl).2 hstands,
    (hfits _ hcontains _).2 hstands, (hfits _ hglob _).2 hstands⟩

end Query.TextPattern

end MetadataSearch
