import MetadataSearch.Proofs.Query.Elements

/-!
# The lexer undoes writing

**Theorem (`lex_written`).** Any sequence of elements that is written with a blank between neighbours is
split into the tokens that the elements mean: one for each, in order, each with the offset in bytes at
which its element starts.

What the lexer does with one element (`lexFrom_piece`) does not depend on what was before it. So the
sequence is followed by an induction with all that was written before as a parameter: its size is the
offset of the next element.
-/

namespace MetadataSearch.Query.Written

variable {now : Instant} {size : Nat}

/-- An element and the blanks behind it. -/
structure Piece (now : Instant) where
  element : Element now
  gap : List Char
  blanks_gap : Blanks gap

def Piece.text (p : Piece now) : List Char := p.element.text ++ p.gap

def textOf (pieces : List (Piece now)) : List Char := pieces.flatMap Piece.text

/-- Neighbours are apart: there is a blank behind every element but the last. -/
def Apart (pieces : List (Piece now)) : Prop := ∀ p ∈ pieces.dropLast, p.gap ≠ []

/-! ## One element -/

theorem lexFrom_blanks {gap : List Char} (h : Blanks gap) (rest : List Char) :
    lexFrom now size (gap ++ rest) = lexFrom now size rest := by
  induction gap with
  | nil => rfl
  | cons c gap ih =>
    rw [List.cons_append, lexFrom_blank (h c List.mem_cons_self)]
    exact ih fun d hd => h d (List.mem_cons_of_mem _ hd)

/-- An element and the blanks behind it give one token. -/
theorem lexFrom_piece (p : Piece now) {rest : List Char} (hgap : AtGap (p.gap ++ rest)) :
    lexFrom now size (p.text ++ rest) =
      (lexFrom now size rest).map (⟨p.element.token, p.text ++ rest⟩ :: ·) := by
  obtain ⟨c, more, htext, hblank, hscan⟩ := p.element.scans
  have hpiece : p.text ++ rest = c :: (more ++ (p.gap ++ rest)) := by
    rw [Piece.text, htext, List.append_assoc, List.cons_append]
  rw [hpiece, lexFrom_token hblank (hscan _ hgap), lexFrom_blanks p.blanks_gap]

/-! ## All elements -/

/-- Behind an element there is a gap, or the query ends. -/
theorem Apart.atGap {p : Piece now} {pieces : List (Piece now)} (h : Apart (p :: pieces)) :
    AtGap (p.gap ++ textOf pieces) := by
  intro c hc
  cases hgap : p.gap with
  | cons d gap =>
    rw [hgap] at hc
    obtain rfl := Option.some.inj hc
    exact p.blanks_gap d (hgap ▸ List.mem_cons_self)
  | nil =>
    cases pieces with
    | nil =>
      rw [hgap] at hc
      cases hc
    | cons q pieces => exact absurd hgap (h p List.mem_cons_self)

theorem Apart.tail {p : Piece now} {pieces : List (Piece now)} (h : Apart (p :: pieces)) :
    Apart pieces := by
  cases pieces with
  | nil => exact fun q hq => absurd hq List.not_mem_nil
  | cons q pieces => exact fun r hr => h r (List.mem_cons_of_mem p hr)

/-- The tokens of what is left of a query, with their offsets. -/
theorem lexFrom_textOf {pieces : List (Piece now)} (h : Apart pieces) (before : List Char)
    (hsize : size = Text.byteSize (before ++ textOf pieces)) :
    ∃ lexemes, lexFrom now size (textOf pieces) = .ok lexemes ∧
      lexemes.map (fun l => (l.token, offsetAt size l.start)) =
        pieces.mapIdx fun i p =>
          (p.element.token, Text.byteSize (before ++ textOf (pieces.take i))) := by
  induction pieces generalizing before with
  | nil => exact ⟨[], lexFrom_nil, rfl⟩
  | cons p pieces ih =>
    have hcons : textOf (p :: pieces) = p.text ++ textOf pieces := List.flatMap_cons
    rw [hcons, ← List.append_assoc] at hsize
    obtain ⟨lexemes, hlex, hmap⟩ := ih h.tail (before ++ p.text) hsize
    refine ⟨⟨p.element.token, p.text ++ textOf pieces⟩ :: lexemes, ?_, ?_⟩
    · rw [hcons, lexFrom_piece p h.atGap, hlex]
      rfl
    · have hoffset : offsetAt size (p.text ++ textOf pieces) = Text.byteSize before := by
        rw [hsize, List.append_assoc, offsetAt_append]
      rw [List.map_cons, hmap, List.mapIdx_cons, hoffset]
      simp only [List.take_zero, List.take_succ_cons, textOf, List.flatMap_nil, List.flatMap_cons,
        List.append_nil, List.append_assoc]

/-- **The lexer undoes writing.** -/
theorem lex_written {front : List Char} (hfront : Blanks front) {pieces : List (Piece now)}
    (h : Apart pieces) :
    ∃ lexemes, lex now (front ++ textOf pieces) = .ok lexemes ∧
      lexemes.map (fun l => (l.token, offsetAt (Text.byteSize (front ++ textOf pieces)) l.start)) =
        pieces.mapIdx fun i p =>
          (p.element.token, Text.byteSize (front ++ textOf (pieces.take i))) := by
  obtain ⟨lexemes, hlex, hmap⟩ := lexFrom_textOf h front rfl
  exact ⟨lexemes, (lexFrom_blanks hfront _).trans hlex, hmap⟩

/-- A name of letters with two bytes, and a string that holds a quote and a sign. -/
def accented : List (Piece ⟨0, 0⟩) :=
  [⟨.name ⟨'é', ['t', 'é'], rfl, List.all_eq_true.1 rfl⟩, ['\u00A0'], List.all_eq_true.1 rfl⟩,
    ⟨.sign (.comparator .ne), [' '], List.all_eq_true.1 rfl⟩,
    ⟨.string ⟨'"', "a\"<=".toList, ['c'], rfl, List.forall_mem_singleton.2 List.mem_cons_self⟩,
      ['\n'], List.all_eq_true.1 rfl⟩,
    ⟨.secondsFromNow (.given [] "-5".toList [' '] (-5) (List.all_eq_true.1 rfl)
      (List.all_eq_true.1 rfl) rfl) ⟨-5, 0⟩ rfl, [], List.all_eq_true.1 rfl⟩]

theorem lex_written_accented :
    Blanks [' '] ∧ Apart accented ∧
      ∃ lexemes, lex ⟨0, 0⟩ " été\u00A0!= \"a\\\"<=\"c\n$time.now(-5 )".toList = .ok lexemes ∧
        lexemes.map (fun l => (l.token, offsetAt 34 l.start)) =
          [(.name "été", 1), (.comparator .ne, 8),
            (.value (.text (.known "a\"<=".toList true false)), 11),
            (.value (.time ⟨-5, 0⟩), 20)] := by
  have hfront : Blanks [' '] := List.all_eq_true.1 rfl
  have hpieces : Apart accented := by unfold Apart; decide
  have htext : [' '] ++ textOf accented = " été\u00A0!= \"a\\\"<=\"c\n$time.now(-5 )".toList := rfl
  obtain ⟨lexemes, hlex, hmap⟩ := lex_written hfront hpieces
  rw [htext] at hlex hmap
  exact ⟨hfront, hpieces, lexemes, hlex, hmap⟩

end MetadataSearch.Query.Written
