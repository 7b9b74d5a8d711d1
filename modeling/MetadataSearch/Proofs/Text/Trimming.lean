import Mathlib.Data.List.TakeWhile
import MetadataSearch.Text.Blank

/-!
# Trimming and splitting

Trimming cuts one blank after another off either end of a text (`eq_of_trim`) until there is none
(`ends_trim`), and does nothing to a text without blanks (`trim_eq_self`). Splitting leaves no separator
in any piece (`not_mem_of_mem_splitOn`).
-/

namespace MetadataSearch.Text

variable {c : Char} {text : List Char}

/-! ## Blanks -/

/-- The code points of the blanks. -/
def blankCodes : List Nat :=
  [9, 10, 11, 12, 13, 0x20, 0x85, 0xA0, 0x1680, 0x2000, 0x2001, 0x2002, 0x2003, 0x2004, 0x2005,
   0x2006, 0x2007, 0x2008, 0x2009, 0x200A, 0x2028, 0x2029, 0x202F, 0x205F, 0x3000]

theorem mem_blankCodes (h : isBlank c = true) : c.toNat ∈ blankCodes := by
  simp only [isBlank, Bool.or_eq_true, Bool.and_eq_true, beq_iff_eq, decide_eq_true_eq] at h
  simp only [blankCodes, List.mem_cons, List.not_mem_nil, or_false]
  omega

/-- What is checked for every code point of a blank holds of every blank. -/
theorem of_isBlank {p : Char → Prop} (hall : ∀ n ∈ blankCodes, p (Char.ofNat n))
    (h : isBlank c = true) : p c := by
  have hc := hall c.toNat (mem_blankCodes h)
  rwa [Char.ofNat_toNat] at hc

/-! ## Trimming -/

/-- Digits are no blanks. -/
theorem isBlank_of_isDigit (h : c.isDigit = true) : isBlank c = false := by
  obtain ⟨hlow, hhigh⟩ := Char.isDigit_iff_toNat.1 h
  have hzero : '0'.toNat = 48 := rfl
  have hnine : '9'.toNat = 57 := rfl
  simp only [isBlank, Bool.or_eq_false_iff, Bool.and_eq_false_iff, beq_eq_false_iff_ne,
    decide_eq_false_iff_not]
  omega

theorem trimLeft_cons_blank (hc : isBlank c = true) (text : List Char) :
    trimLeft (c :: text) = trimLeft text :=
  List.dropWhile_cons_of_pos hc

theorem trimLeft_cons_of_not_blank (hc : ¬ isBlank c = true) (text : List Char) :
    trimLeft (c :: text) = c :: text :=
  List.dropWhile_cons_of_neg hc

theorem trim_cons_blank (hc : isBlank c = true) (text : List Char) : trim (c :: text) = trim text := by
  rw [trim, trim, trimLeft_cons_blank hc]

theorem trim_append_blank (hc : isBlank c = true) (text : List Char) :
    trim (text ++ [c]) = trim text := by
  have hend : trimLeft (text ++ [c]) =
      if (trimLeft text).isEmpty then trimLeft [c] else trimLeft text ++ [c] :=
    List.dropWhile_append
  rw [trim, trim, hend]
  split
  case isTrue hblank =>
    rw [List.isEmpty_iff.1 hblank, trimLeft_cons_blank hc]
    rfl
  case isFalse => rw [List.reverse_append, List.reverse_singleton, List.singleton_append,
    trimLeft_cons_blank hc]

theorem eq_of_trimLeft {α : Type} {f : List Char → α}
    (hfirst : ∀ c text, isBlank c = true → f (c :: text) = f text) (text : List Char) :
    f (trimLeft text) = f text := by
  induction text with
  | nil => rfl
  | cons c text ih =>
    by_cases hc : isBlank c = true
    · rw [trimLeft_cons_blank hc, hfirst c text hc]
      exact ih
    · rw [trimLeft_cons_of_not_blank hc]

/-- What trimming keeps is kept by cutting one blank off either end at a time. -/
theorem eq_of_trim {α : Type} {f : List Char → α}
    (hfirst : ∀ c text, isBlank c = true → f (c :: text) = f text)
    (hlast : ∀ c text, isBlank c = true → f (text ++ [c]) = f text) (text : List Char) :
    f (trim text) = f text := by
  have hreversed : ∀ c text, isBlank c = true → f (c :: text).reverse = f text.reverse :=
    fun c text hc => by rw [List.reverse_cons, hlast c text.reverse hc]
  calc f (trim text)
      = f (trimLeft text).reverse.reverse :=
        eq_of_trimLeft (f := fun text => f text.reverse) hreversed (trimLeft text).reverse
    _ = f (trimLeft text) := by rw [List.reverse_reverse]
    _ = f text := eq_of_trimLeft hfirst text

/-- Nothing is dropped from a text of characters to keep. -/
theorem dropWhile_eq_self {p : Char → Bool} {text : List Char} (h : ∀ c ∈ text, p c = false) :
    text.dropWhile p = text := by
  cases text with
  | nil => rfl
  | cons c text => exact List.dropWhile_cons_of_neg (by simp [h c List.mem_cons_self])

theorem trim_eq_self {text : List Char} (h : ∀ c ∈ text, isBlank c = false) : trim text = text := by
  have hfront : trimLeft text = text := dropWhile_eq_self h
  have hback : trimLeft text.reverse = text.reverse :=
    dropWhile_eq_self fun c hc => h c (List.mem_reverse.1 hc)
  rw [trim, hfront, hback, List.reverse_reverse]

/-- Blanks behind a text are trimmed away. -/
theorem trim_append_blanks {blanks : List Char} (h : ∀ c ∈ blanks, isBlank c = true)
    (text : List Char) : trim (text ++ blanks) = trim text := by
  induction blanks generalizing text with
  | nil => rw [List.append_nil]
  | cons c blanks ih =>
    have hrest : ∀ d ∈ blanks, isBlank d = true := fun d hd => h d (List.mem_cons_of_mem _ hd)
    rw [List.append_cons, ih hrest, trim_append_blank (h c List.mem_cons_self)]

/-- Blanks before a text are trimmed away. -/
theorem trim_blanks_append {blanks : List Char} (h : ∀ c ∈ blanks, isBlank c = true)
    (text : List Char) : trim (blanks ++ text) = trim text := by
  induction blanks with
  | nil => rfl
  | cons c blanks ih =>
    rw [List.cons_append, trim_cons_blank (h c List.mem_cons_self)]
    exact ih fun d hd => h d (List.mem_cons_of_mem _ hd)

theorem any_head? {p : Char → Bool} {text : List Char} (h : ∀ c ∈ text, p c = false) :
    text.head?.any p = false := by
  cases text with
  | nil => rfl
  | cons c text => exact h c List.mem_cons_self

/-- The first character of two texts is that of the first one, if it has any. -/
theorem any_head?_append {p : Char → Bool} {front back : List Char} (hfront : ∀ c ∈ front, p c = false)
    (hback : front = [] → back.head?.any p = false) : (front ++ back).head?.any p = false := by
  cases front with
  | nil => exact hback rfl
  | cons c front => exact hfront c List.mem_cons_self

/-- Only the ends of a text count. -/
theorem trim_of_ends {text : List Char} (hfront : text.head?.any isBlank = false)
    (hback : text.getLast?.any isBlank = false) : trim text = text := by
  have hends : ∀ text : List Char, text.head?.any isBlank = false → trimLeft text = text := by
    intro text h
    cases text with
    | nil => rfl
    | cons c text => exact trimLeft_cons_of_not_blank (by simpa using h) text
  rw [trim, hends text hfront, hends text.reverse (by rwa [List.head?_reverse]), List.reverse_reverse]

/-- A front of characters to take is cut off where it ends. -/
theorem takeWhile_append {p : Char → Bool} {front back : List Char} (hfront : ∀ c ∈ front, p c = true)
    (hback : back.head?.any p = false) :
    (front ++ back).takeWhile p = front ∧ (front ++ back).dropWhile p = back := by
  rw [List.takeWhile_append_of_pos hfront, List.dropWhile_append_of_pos hfront]
  cases back with
  | nil => exact ⟨List.append_nil front, rfl⟩
  | cons c back =>
    have hc : p c = false := hback
    rw [List.takeWhile_cons_of_neg (by rw [hc]; decide), List.append_nil,
      List.dropWhile_cons_of_neg (by rw [hc]; decide)]
    exact ⟨rfl, rfl⟩

theorem any_head?_dropWhile (p : Char → Bool) (text : List Char) :
    (text.dropWhile p).head?.any p = false := by
  induction text with
  | nil => rfl
  | cons c text ih =>
    cases hc : p c with
    | true =>
      rw [List.dropWhile_cons_of_pos hc]
      exact ih
    | false =>
      rw [List.dropWhile_cons_of_neg (by rw [hc]; decide)]
      exact hc

theorem eq_append_takeWhile_reverse (p : Char → Bool) (text : List Char) :
    text = (text.reverse.dropWhile p).reverse ++ (text.reverse.takeWhile p).reverse := by
  rw [← List.reverse_append, List.takeWhile_append_dropWhile, List.reverse_reverse]

/-- What is cut off the two ends of a text is of one kind. -/
theorem exists_eq_trimmed (p : Char → Bool) (text : List Char) :
    ∃ front back, (∀ c ∈ front, p c = true) ∧ (∀ c ∈ back, p c = true) ∧
      text = front ++ (((text.dropWhile p).reverse.dropWhile p).reverse ++ back) := by
  refine ⟨text.takeWhile p, ((text.dropWhile p).reverse.takeWhile p).reverse,
    fun c hc => List.mem_takeWhile_imp hc,
    fun c hc => List.mem_takeWhile_imp (List.mem_reverse.1 hc), ?_⟩
  rw [← eq_append_takeWhile_reverse, List.takeWhile_append_dropWhile]

/-- No blank is left at the ends of a trimmed text. -/
theorem ends_trim (text : List Char) :
    (trim text).head?.any isBlank = false ∧ (trim text).getLast?.any isBlank = false := by
  constructor
  · have hleft : trimLeft text = trim text ++ _ := eq_append_takeWhile_reverse isBlank _
    have hfirst : (trimLeft text).head?.any isBlank = false := any_head?_dropWhile isBlank text
    cases htrim : trim text with
    | nil => rfl
    | cons c more =>
      rw [hleft, htrim] at hfirst
      exact hfirst
  · rw [trim, List.getLast?_reverse]
    exact any_head?_dropWhile isBlank _

/-! ## Splitting -/

theorem not_mem_of_mem_splitOn {α : Type} [DecidableEq α] {separator : α} {whole piece : List α}
    (h : piece ∈ whole.splitOn separator) : separator ∉ piece := by
  induction whole generalizing piece with
  | nil =>
    rw [List.splitOn_nil, List.mem_singleton] at h
    exact h ▸ List.not_mem_nil
  | cons a rest ih =>
    rw [List.splitOn_cons_eq_if_modifyHead] at h
    split at h
    case isTrue =>
      rcases List.mem_cons.1 h with rfl | h
      · exact List.not_mem_nil
      · exact ih h
    case isFalse ha =>
      obtain ⟨first, others, hsplit⟩ := List.exists_cons_of_ne_nil (List.splitOn_ne_nil separator rest)
      rw [hsplit] at ih h
      rw [List.modifyHead_cons] at h
      rcases List.mem_cons.1 h with rfl | h
      · intro hmem
        rcases List.mem_cons.1 hmem with rfl | hmem
        · exact ha (beq_self_eq_true _)
        · exact ih List.mem_cons_self hmem
      · exact ih (List.mem_cons_of_mem _ h)

end MetadataSearch.Text
