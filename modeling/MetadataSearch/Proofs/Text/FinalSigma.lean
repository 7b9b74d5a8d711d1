import MetadataSearch.Text.LowerCase

/-!
# Lower case in a context

A text has its own lower case wherever it stands, but for its capital sigmas: whether one takes the final
form depends on what stands around the text.

**Theorem (`exists_lowerCase_eq`).** If each capital sigma of a word ends a word in its context iff it does
so in the word alone, then the lower case of the whole holds the lower case of the word.

The lower case of a part depends on the context only through the question whether its sigmas end words
(`lowerWithin_congr`). A character that is neither cased nor ignored by case, such as a star, is as good as
the end of the text (`startsCased_append`).
-/

namespace MetadataSearch.Text

/-! ## Parts of a text -/

/-- Whether a capital sigma between these characters, the nearest of which stand first, ends a word. -/
def endsWord (before behind : List Char) : Bool := startsCased before && !startsCased behind

/-- The lower case of a text that stands between `before`, nearest first, and `behind`. -/
def lowerWithin (before behind : List Char) : List Char → List Char
  | [] => []
  | c :: rest =>
    (if c == 'Σ' then [if endsWord before (rest ++ behind) then 'ς' else 'σ'] else lowerChar c) ++
      lowerWithin (c :: before) behind rest

theorem lowerAfter_append (before text behind : List Char) :
    lowerAfter before (text ++ behind) =
      lowerWithin before behind text ++ lowerAfter (text.reverse ++ before) behind := by
  induction text generalizing before with
  | nil => rfl
  | cons c text ih => simp [lowerAfter, lowerWithin, endsWord, ih]

theorem lowerWithin_nil (text : List Char) : lowerWithin [] [] text = lowerCase text := by
  simpa [lowerAfter, lowerCase] using (lowerAfter_append [] text []).symm

/-- **The context counts for the sigmas only.** -/
theorem lowerWithin_congr {before before' behind behind' text : List Char}
    (h : ∀ front rest, text = front ++ 'Σ' :: rest →
      endsWord (front.reverse ++ before) (rest ++ behind) =
        endsWord (front.reverse ++ before') (rest ++ behind')) :
    lowerWithin before behind text = lowerWithin before' behind' text := by
  induction text generalizing before before' with
  | nil => rfl
  | cons c text ih =>
    have hrest : lowerWithin (c :: before) behind text = lowerWithin (c :: before') behind' text := by
      apply ih
      intro front rest htext
      simpa using h (c :: front) rest (by rw [htext]; rfl)
    by_cases hsigma : c = 'Σ'
    · have hfinal : endsWord before (text ++ behind) = endsWord before' (text ++ behind') :=
        h [] text (by rw [hsigma]; rfl)
      simp [lowerWithin, hrest, hfinal]
    · simp [lowerWithin, hsigma, hrest]

/-! ## Words -/

/-- Each capital sigma of the word ends a word between the two texts iff it does so in the word alone. -/
def KeepsSigmas (before word behind : List Char) : Prop :=
  ∀ front rest, word = front ++ 'Σ' :: rest →
    endsWord (front.reverse ++ before.reverse) (rest ++ behind) = endsWord front.reverse rest

theorem keepsSigmas_of_not_mem {word : List Char} (h : 'Σ' ∉ word) (before behind : List Char) :
    KeepsSigmas before word behind := by
  rintro front rest rfl
  exact absurd (List.mem_append_right _ List.mem_cons_self) h

/-- **A word that keeps its sigmas has its lower case in that of the whole.** -/
theorem exists_lowerCase_eq {before word behind : List Char} (h : KeepsSigmas before word behind) :
    ∃ left right, lowerCase (before ++ word ++ behind) = left ++ (lowerCase word ++ right) := by
  have hword : lowerWithin before.reverse behind word = lowerCase word := by
    rw [← lowerWithin_nil word]
    apply lowerWithin_congr
    intro front rest hsplit
    simpa using h front rest hsplit
  refine ⟨lowerWithin [] (word ++ behind) before, lowerAfter (word.reverse ++ before.reverse) behind, ?_⟩
  rw [lowerCase, List.append_assoc, lowerAfter_append, lowerAfter_append, List.append_nil, hword]

/-! ## Stars -/

/-- A character that case sees and that is not cased is as good as the end of the text. -/
theorem startsCased_append {c : Char} (hseen : isCaseIgnorable c = false) (hcased : isCased c = false)
    (text : List Char) : startsCased (text ++ [c]) = startsCased text := by
  induction text with
  | nil => simp [startsCased, hseen, hcased]
  | cons d text ih =>
    by_cases hd : isCaseIgnorable d = true
    · simpa [startsCased, hd] using ih
    · simp [startsCased, hd]

/-- Stars around a text make no difference to it. -/
theorem lowerCase_starred (text : List Char) :
    lowerCase ('*' :: (text ++ ['*'])) = '*' :: (lowerCase text ++ ['*']) := by
  have hseen : isCaseIgnorable '*' = false := by decide +kernel
  have hcased : isCased '*' = false := by decide +kernel
  have hstar : ∀ before, lowerAfter before ['*'] = ['*'] := fun before => rfl
  have htext : lowerWithin ['*'] ['*'] text = lowerCase text := by
    rw [← lowerWithin_nil text]
    apply lowerWithin_congr
    intro front rest _
    simp [endsWord, startsCased_append hseen hcased]
  calc lowerCase ('*' :: (text ++ ['*']))
      = '*' :: lowerAfter ['*'] (text ++ ['*']) := rfl
    _ = '*' :: (lowerCase text ++ ['*']) := by rw [lowerAfter_append, htext, hstar]

end MetadataSearch.Text
