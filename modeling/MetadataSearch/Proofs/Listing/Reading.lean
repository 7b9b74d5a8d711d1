import MetadataSearch.Proofs.Listing.Printed
import MetadataSearch.Proofs.Numeral.Digits

/-!
# Reading printed listings

Theorem (`read_write`): a printed listing is read back, every entry with its name and its value, in
order. It holds for every content of the texts, every depth of the lists and every layout.

Invariant (`readList_text`, `readList_itemsText`): with an item or the rest of a list in front, the reader
comes to what follows with the values that are meant on the innermost list, and the lists around it as
they were.

Reason: the first character of a printed value tells which kind it is (`Printed.exists_text_eq_cons`). A
text in quotes ends at the first quote without a backslash. A bare value holds no comma, parenthesis or
end of a line, so that it ends where its item ends (`EndsItem`), and blanks that it takes with it are
trimmed. After an opening parenthesis only the null marker goes on with a letter.
-/

namespace MetadataSearch

namespace Listing

/-! ## Texts in quotes -/

theorem readQuoted?_close (rest : List Char) : readQuoted? ('"' :: rest) = some ([], rest) := by
  rw [readQuoted?.eq_def]
  simp

theorem readQuoted?_escape (c : Char) (rest : List Char) :
    readQuoted? ('\\' :: c :: rest) =
      (readQuoted? rest).map fun (text, tail) => (unescape c :: text, tail) := by
  rw [readQuoted?.eq_def]
  simp

theorem readQuoted?_plain {c : Char} (hquote : c ≠ '"') (hescape : c ≠ '\\') (rest : List Char) :
    readQuoted? (c :: rest) = (readQuoted? rest).map fun (text, tail) => (c :: text, tail) := by
  rw [readQuoted?.eq_def]
  simp [hquote, hescape]

theorem readQuoted?_escapeChar (c : Char) (rest : List Char) :
    readQuoted? (escapeChar c ++ rest) =
      (readQuoted? rest).map fun (text, tail) => (c :: text, tail) := by
  rw [escapeChar]
  by_cases hmark : c = '"' ∨ c = '\\'
  · rcases hmark with rfl | rfl <;> exact readQuoted?_escape _ rest
  by_cases hline : c = '\n'
  · subst hline
    exact readQuoted?_escape 'n' rest
  by_cases htab : c = '\t'
  · subst htab
    exact readQuoted?_escape 't' rest
  rw [if_neg hmark, if_neg hline, if_neg htab]
  rw [not_or] at hmark
  exact readQuoted?_plain hmark.1 hmark.2 rest

/-- A text in quotes is read back up to the closing quote. -/
theorem readQuoted?_quoted (text rest : List Char) :
    readQuoted? (text.flatMap escapeChar ++ '"' :: rest) = some (text, rest) := by
  induction text with
  | nil => exact readQuoted?_close rest
  | cons c text ih =>
    rw [List.flatMap_cons, List.append_assoc, readQuoted?_escapeChar, ih]
    rfl

/-! ## Bare values -/

/-- A text that is printed without quotes: nothing in it ends it, and nothing is trimmed away. -/
structure Bare (text : List Char) : Prop where
  starts : ∃ c rest, text = c :: rest ∧ (c = '-' ∨ c.isDigit = true)
  inside : ∀ c ∈ text, inListItem c = true
  trimmed : Text.trim text = text

/-- Whole numbers and dates: digits and a few signs, with a digit at the end. -/
theorem bare_of_digits {c d : Char} {front rest : List Char} (hends : c :: rest = front ++ [d])
    (hc : c = '-' ∨ c.isDigit = true) (hd : d.isDigit = true)
    (h : ∀ a ∈ c :: rest, a.isDigit = true ∨ a ∈ ['-', ':', '+', ' ']) : Bare (c :: rest) := by
  refine ⟨⟨c, rest, rfl, hc⟩, fun a ha => ?_, Text.trim_of_ends ?_ ?_⟩
  · have hsign : ∀ b ∈ ['-', ':', '+', ' '], inListItem b = true := List.all_eq_true.1 (by decide)
    rcases h a ha with ha | ha
    · simp only [inListItem, Bool.and_eq_true, bne_iff_ne]
      refine ⟨⟨?_, ?_⟩, ?_⟩ <;> rintro rfl <;> exact absurd ha (by decide)
    · exact hsign a ha
  · rcases hc with rfl | hc
    · rfl
    · simp [Text.isBlank_of_isDigit hc]
  · rw [hends]
    simp [Text.isBlank_of_isDigit hd]

theorem bare_ofInt (n : Int) : Bare (Numeral.ofInt n) := by
  have hdigits : ∀ a ∈ Numeral.ofNat n.natAbs, a.isDigit = true := fun a ha =>
    Numeral.isDigit_of_mem_ofNat ha
  obtain ⟨front, d, hlast⟩ : ∃ front d, Numeral.ofNat n.natAbs = front ++ [d] := by
    rcases List.eq_nil_or_concat (Numeral.ofNat n.natAbs) with hnil | ⟨front, d, h⟩
    · exact absurd hnil Nat.toDigits_ne_nil
    · exact ⟨front, d, by rw [h, List.concat_eq_append]⟩
  have hd : d.isDigit = true := hdigits d (by simp [hlast])
  rw [Numeral.ofInt]
  by_cases hneg : n < 0
  · rw [if_pos hneg]
    have hends : '-' :: Numeral.ofNat n.natAbs = ('-' :: front) ++ [d] := by rw [hlast]; rfl
    refine bare_of_digits hends (.inl rfl) hd fun a ha => ?_
    rcases List.mem_cons.1 ha with rfl | ha
    · exact .inr List.mem_cons_self
    · exact .inl (hdigits a ha)
  · rw [if_neg hneg]
    cases hcons : Numeral.ofNat n.natAbs with
    | nil => exact absurd hcons Nat.toDigits_ne_nil
    | cons c rest =>
      rw [hcons] at hdigits hlast
      exact bare_of_digits hlast (.inr (hdigits c List.mem_cons_self)) hd fun a ha =>
        .inl (hdigits a ha)

theorem bare_writeWithOffset (t : Instant) : Bare t.writeWithOffset := by
  have hchars : ∀ a ∈ t.writeWithOffset, a.isDigit = true ∨ a ∈ ['-', ':', '+', ' '] := by
    intro a ha
    have hpadded : ∀ {width n}, a ∈ Numeral.padded width n → a.isDigit = true := fun h =>
      Numeral.isDigit_of_mem_padded h
    have hoffset : ∀ b ∈ " +0000".toList, (b.isDigit || ['-', ':', '+', ' '].contains b) = true :=
      List.all_eq_true.1 (by decide)
    simp only [Instant.writeWithOffset, List.mem_append, List.mem_cons] at ha
    rcases ha with h | rfl | h | rfl | h | rfl | h | rfl | h | rfl | h | h
    all_goals first | exact .inl (hpadded h) | exact .inr (by decide) | simpa using hoffset _ h
  obtain ⟨c, digits, hfirst, hc⟩ :=
    Instant.exists_padded_eq_cons 4 (Date.ofDayNumber t.day).year.toNat
  obtain ⟨front, hlast⟩ : ∃ front, t.writeWithOffset = front ++ ['0'] := by
    have hzero : " +0000".toList = " +000".toList ++ ['0'] := rfl
    rw [Instant.writeWithOffset, hzero]
    simp only [← List.append_assoc, ← List.cons_append]
    exact ⟨_, rfl⟩
  obtain ⟨rest, hcons⟩ : ∃ rest, t.writeWithOffset = c :: rest := by
    rw [Instant.writeWithOffset]
    simp only [hfirst, List.cons_append]
    exact ⟨_, rfl⟩
  rw [hcons] at hchars hlast ⊢
  exact bare_of_digits hlast (.inr hc) (by decide) hchars

theorem bareValue_ofInt (n : Int64) : bareValue (Numeral.ofInt n.toInt) = .integer n := by
  have htail : ∀ c ∈ (Numeral.ofInt n.toInt).tail, c.isDigit = true := by
    intro c hc
    rw [Numeral.ofInt] at hc
    split at hc
    · exact Numeral.isDigit_of_mem_ofNat hc
    · exact Numeral.isDigit_of_mem_ofNat (List.mem_of_mem_tail hc)
  rw [bareValue, Instant.readOffsetDateTime?_of_digits htail,
    Numeral.readInt64?_of_spells (Numeral.spells_ofInt _)]

theorem bareValue_writeWithOffset {t : Instant} (h : t.FourDigitSecond) :
    bareValue t.writeWithOffset = .date t := by
  rw [bareValue, Instant.readOffsetDateTime?_writeWithOffset h]

/-! ## Steps through a list -/

section Steps

variable {items : List RawValue} {outer : List (List RawValue)}

theorem readList_skip {c : Char} (h : (Text.isBlank c || c == ',') = true) (rest : List Char) :
    readList items outer (c :: rest) = readList items outer rest := by
  rw [readList.eq_def]
  exact if_pos h

theorem readList_skips {gap : List Char} (h : ∀ c ∈ gap, (Text.isBlank c || c == ',') = true)
    (rest : List Char) : readList items outer (gap ++ rest) = readList items outer rest := by
  induction gap with
  | nil => rfl
  | cons c gap ih =>
    rw [List.cons_append, readList_skip (h c List.mem_cons_self)]
    exact ih fun d hd => h d (List.mem_cons_of_mem _ hd)

theorem readList_last (rest : List Char) :
    readList items [] (')' :: rest) = .ok (.array items.reverse, rest) := by
  rw [readList.eq_def]
  rfl

theorem readList_close (parent : List RawValue) (rest : List Char) :
    readList items (parent :: outer) (')' :: rest) =
      readList (.array items.reverse :: parent) outer rest := by
  rw [readList.eq_def]
  rfl

theorem readList_quoted {content after rest : List Char} (h : readQuoted? rest = some (content, after)) :
    readList items outer ('"' :: rest) = readList (.string (String.ofList content) :: items) outer after := by
  rw [readList.eq_def]
  simp only [Char.reduceEq, if_false, if_true]
  rw [if_neg (by decide)]
  split
  · next hnone => rw [h] at hnone; cases hnone
  · next hsome =>
    rw [h] at hsome
    obtain ⟨rfl, rfl⟩ := Prod.mk.inj (Option.some.inj hsome)
    rfl

theorem readList_null {rest after : List Char} (h : afterNull? (Text.trimLeft rest) = some after) :
    readList items outer ('(' :: rest) = readList (.unsupported "null" :: items) outer after := by
  rw [readList.eq_def]
  simp only [Char.reduceEq, if_false, if_true]
  rw [if_neg (by decide)]
  split
  · next hsome =>
    rw [h] at hsome
    obtain rfl := Option.some.inj hsome
    rfl
  · next hnone => rw [h] at hnone; cases hnone

theorem readList_open {rest : List Char} (h : afterNull? (Text.trimLeft rest) = none) :
    readList items outer ('(' :: rest) = readList [] (items :: outer) rest := by
  rw [readList.eq_def]
  simp only [Char.reduceEq, if_false, if_true]
  rw [if_neg (by decide)]
  split
  · next hsome => rw [h] at hsome; cases hsome
  · rfl

theorem readList_bare {c : Char} (h : c = '-' ∨ c.isDigit = true) (rest : List Char) :
    readList items outer (c :: rest) =
      readList (bareValue (Text.trim (c :: rest.takeWhile inListItem)) :: items) outer
        (rest.dropWhile inListItem) := by
  have hblank : Text.isBlank c = false := by
    rcases h with rfl | h
    · decide
    · exact Text.isBlank_of_isDigit h
  have hne : ∀ d ∈ [',', ')', '"', '('], c ≠ d := by
    have hother : ∀ d ∈ [',', ')', '"', '('], (d != '-' && !d.isDigit) = true :=
      List.all_eq_true.1 (by decide)
    rintro d hd rfl
    have hc := hother c hd
    rcases h with rfl | h
    · cases hc
    · simp [h] at hc
  rw [readList.eq_def]
  simp [hblank, hne ',', hne ')', hne '"', hne '(']

end Steps

/-! ## Items of a list -/

/-- What stands behind an item: blanks, then a comma or the closing parenthesis. -/
def EndsItem (after : List Char) : Prop :=
  ∃ (gap : Blanks) (d : Char) (rest : List Char), (d = ',' ∨ d = ')') ∧ after = gap.1 ++ d :: rest

theorem endsItem_cons {d : Char} (h : d = ',' ∨ d = ')') (rest : List Char) : EndsItem (d :: rest) :=
  ⟨⟨[], fun _ hc => by cases hc⟩, d, rest, h, rfl⟩

theorem not_inListItem {d : Char} (h : d = ',' ∨ d = ')') : ¬ inListItem d = true := by
  rcases h with rfl | rfl <;> decide

/-- A bare item takes blanks on its line with it. -/
theorem isBlank_of_mem_takeWhile {after : List Char} (h : EndsItem after) :
    ∀ c ∈ after.takeWhile inListItem, Text.isBlank c = true := by
  obtain ⟨⟨gap, hgap⟩, d, rest, hd, rfl⟩ := h
  induction gap with
  | nil =>
    simp [List.takeWhile_cons_of_neg (not_inListItem hd)]
  | cons b gap ih =>
    have hrest := ih fun c hc => hgap c (List.mem_cons_of_mem _ hc)
    by_cases hb : inListItem b = true
    · simp only [List.cons_append, List.takeWhile_cons_of_pos hb, List.mem_cons]
      rintro c (rfl | hc)
      · exact hgap c List.mem_cons_self
      · exact hrest c hc
    · simp [List.takeWhile_cons_of_neg hb]

/-- The blanks that a bare item takes with it would have been passed over. -/
theorem readList_dropWhile {items : List RawValue} {outer : List (List RawValue)}
    {after : List Char} (h : EndsItem after) :
    readList items outer (after.dropWhile inListItem) = readList items outer after := by
  obtain ⟨⟨gap, hgap⟩, d, rest, hd, rfl⟩ := h
  induction gap with
  | nil => simp [List.dropWhile_cons_of_neg (not_inListItem hd)]
  | cons b gap ih =>
    have hrest := ih fun c hc => hgap c (List.mem_cons_of_mem _ hc)
    by_cases hb : inListItem b = true
    · have hskip : (Text.isBlank b || b == ',') = true := by simp [hgap b List.mem_cons_self]
      simp only [List.cons_append, List.dropWhile_cons_of_pos hb, hrest, readList_skip hskip]
    · simp [List.dropWhile_cons_of_neg hb]

theorem readList_of_bare {items : List RawValue} {outer : List (List RawValue)}
    {text after : List Char} (h : Bare text) (hafter : EndsItem after) :
    readList items outer (text ++ after) = readList (bareValue text :: items) outer after := by
  obtain ⟨c, more, rfl, hc⟩ := h.starts
  have hmore : ∀ d ∈ more, inListItem d = true := fun d hd => h.inside d (List.mem_cons_of_mem _ hd)
  rw [List.cons_append, readList_bare hc, List.takeWhile_append_of_pos hmore,
    List.dropWhile_append_of_pos hmore, readList_dropWhile hafter, ← List.cons_append,
    Text.trim_append_blanks (isBlank_of_mem_takeWhile hafter), h.trimmed]

/-! ## First characters -/

/-- The characters with which a printed value may start. -/
def StartsValue (c : Char) : Prop := c = '"' ∨ c = '(' ∨ c = '-' ∨ c.isDigit = true

theorem StartsValue.not_blank {c : Char} (h : StartsValue c) : Text.isBlank c = false := by
  rcases h with rfl | rfl | rfl | h
  · decide
  · decide
  · decide
  · exact Text.isBlank_of_isDigit h

theorem StartsValue.ne_n {c : Char} (h : StartsValue c) : c ≠ 'n' := by
  rintro rfl
  rcases h with h | h | h | h <;> exact absurd h (by decide)

theorem Bare.startsValue {text : List Char} (h : Bare text) :
    ∃ c rest, text = c :: rest ∧ StartsValue c := by
  obtain ⟨c, rest, htext, hc⟩ := h.starts
  exact ⟨c, rest, htext, .inr (.inr hc)⟩

theorem Printed.exists_text_eq_cons : (p : Printed) → ∃ c rest, p.text = c :: rest ∧ StartsValue c
  | .string s => ⟨'"', _, by rw [Printed.text, quote]; rfl, .inl rfl⟩
  | .integer n => by
    rw [Printed.text]
    exact (bare_ofInt n.toInt).startsValue
  | .date t => by
    rw [Printed.text]
    exact (bare_writeWithOffset t.1).startsValue
  | .null => ⟨'(', _, by rw [Printed.text]; rfl, .inr (.inl rfl)⟩
  | .array items close => ⟨'(', _, by rw [Printed.text], .inr (.inl rfl)⟩

/-- Nothing but the null marker is taken for it. -/
theorem afterNull?_eq_none {c : Char} (hblank : Text.isBlank c = false) (hn : c ≠ 'n') (gap : Blanks)
    (rest : List Char) : afterNull? (Text.trimLeft (gap.1 ++ c :: rest)) = none := by
  rw [Text.trimLeft, List.dropWhile_append_of_pos gap.2, List.dropWhile_cons_of_neg (by simp [hblank])]
  show (if 'n' == c then List.isPrefixOf? ['u', 'l', 'l', ')'] rest else none) = none
  rw [if_neg (by simpa using Ne.symm hn)]

theorem afterNull?_itemsText (items : List (Blanks × Printed)) (close : Blanks) (rest : List Char) :
    afterNull? (Text.trimLeft (Printed.itemsText [] items ++ close.1 ++ ')' :: rest)) = none := by
  cases items with
  | nil =>
    rw [Printed.itemsText, List.nil_append]
    exact afterNull?_eq_none (by decide) (by decide) close rest
  | cons first items =>
    obtain ⟨gap, item⟩ := first
    obtain ⟨c, more, htext, hc⟩ := item.exists_text_eq_cons
    rw [Printed.itemsText, htext]
    simp only [List.nil_append, List.append_assoc, List.cons_append]
    exact afterNull?_eq_none hc.not_blank hc.ne_n gap _

theorem endsItem_itemsText {after : List Char} (h : EndsItem after) (items : List (Blanks × Printed)) :
    EndsItem (Printed.itemsText [','] items ++ after) := by
  cases items with
  | nil => exact h
  | cons first items =>
    rw [Printed.itemsText]
    simp only [List.append_assoc, List.cons_append]
    exact endsItem_cons (.inl rfl) _

mutual

theorem readList_text {after : List Char} (hafter : EndsItem after) {items : List RawValue}
    {outer : List (List RawValue)} : (p : Printed) →
      readList items outer (p.text ++ after) = readList (p.value :: items) outer after
  | .string s => by
    rw [Printed.text, Printed.value, quote]
    simp only [List.cons_append, List.append_assoc, List.nil_append]
    rw [readList_quoted (readQuoted?_quoted s.toList after), String.ofList_toList]
  | .integer n => by
    rw [Printed.text, Printed.value, readList_of_bare (bare_ofInt n.toInt) hafter, bareValue_ofInt]
  | .date t => by
    rw [Printed.text, Printed.value, readList_of_bare (bare_writeWithOffset t.1) hafter,
      bareValue_writeWithOffset t.2]
  | .null => by
    rw [Printed.text, Printed.value]
    have hmarker : afterNull? (Text.trimLeft ("null)".toList ++ after)) = some after := rfl
    exact readList_null hmarker
  | .array content close => by
    rw [Printed.text, Printed.value]
    have hclose : EndsItem (close.1 ++ ')' :: after) := ⟨close, ')', after, .inr rfl, rfl⟩
    have hskip : ∀ c ∈ close.1, (Text.isBlank c || c == ',') = true := fun c hc => by
      simp [close.2 c hc]
    have hnull := afterNull?_itemsText content close after
    simp only [List.append_assoc, List.cons_append, List.nil_append] at hnull ⊢
    rw [readList_open hnull, readList_itemsText (fun _ hc => by cases hc) hclose content,
      List.append_nil, readList_skips hskip, readList_close, List.reverse_reverse]

theorem readList_itemsText {separator after : List Char}
    (hseparator : ∀ c ∈ separator, (Text.isBlank c || c == ',') = true) (hafter : EndsItem after)
    {items : List RawValue} {outer : List (List RawValue)} : (printed : List (Blanks × Printed)) →
      readList items outer (Printed.itemsText separator printed ++ after) =
        readList ((Printed.values printed).reverse ++ items) outer after
  | [] => by
    rw [Printed.itemsText, Printed.values]
    rfl
  | (gap, item) :: more => by
    have hgap : ∀ c ∈ gap.1, (Text.isBlank c || c == ',') = true := fun c hc => by
      simp [gap.2 c hc]
    have hcomma : ∀ c ∈ [','], (Text.isBlank c || c == ',') = true := List.all_eq_true.1 (by decide)
    rw [Printed.itemsText, Printed.values]
    simp only [List.append_assoc, List.reverse_cons, List.cons_append, List.nil_append]
    rw [readList_skips hseparator, readList_skips hgap,
      readList_text (endsItem_itemsText hafter more) item, readList_itemsText hcomma hafter more]

end

/-! ## Entries -/

theorem readValue_of_bare {text : List Char} (h : Bare text) (rest : List Char) :
    readValue (text ++ '\n' :: rest) = .ok (bareValue text, '\n' :: rest) := by
  obtain ⟨c, more, rfl, hc⟩ := h.starts
  have hne : c ≠ '"' ∧ c ≠ '(' := by
    constructor <;> rintro rfl <;> exact absurd hc (by decide)
  have hline : ∀ d ∈ c :: more, (d != '\n') = true := by
    intro d hd
    have := h.inside d hd
    simp only [inListItem, Bool.and_eq_true] at this
    exact this.1.1
  have htake : ((c :: more) ++ '\n' :: rest).takeWhile (· != '\n') = c :: more := by
    rw [List.takeWhile_append_of_pos hline, List.takeWhile_cons_of_neg (by decide), List.append_nil]
  have hdrop : ((c :: more) ++ '\n' :: rest).dropWhile (· != '\n') = '\n' :: rest := by
    rw [List.dropWhile_append_of_pos hline, List.dropWhile_cons_of_neg (by decide)]
  rw [List.cons_append] at htake hdrop ⊢
  rw [readValue, if_neg hne.1, if_neg hne.2, htake, hdrop, h.trimmed]

/-- The value of an entry is read up to the end of its line. -/
theorem readValue_text (p : Printed) (rest : List Char) :
    readValue (p.text ++ '\n' :: rest) = .ok (p.value, '\n' :: rest) := by
  cases p with
  | string s =>
    rw [Printed.text, Printed.value, quote]
    simp only [List.cons_append, List.append_assoc, List.nil_append]
    rw [readValue, if_pos rfl, readQuoted?_quoted]
    show Except.ok (RawValue.string (String.ofList s.toList), _) = _
    rw [String.ofList_toList]
  | integer n =>
    rw [Printed.text, Printed.value, readValue_of_bare (bare_ofInt n.toInt), bareValue_ofInt]
  | date t =>
    rw [Printed.text, Printed.value, readValue_of_bare (bare_writeWithOffset t.1),
      bareValue_writeWithOffset t.2]
  | null =>
    rw [Printed.text, Printed.value]
    rfl
  | array items close =>
    have hclose : EndsItem (close.1 ++ ')' :: '\n' :: rest) := ⟨close, ')', _, .inr rfl, rfl⟩
    have hskip : ∀ c ∈ close.1, (Text.isBlank c || c == ',') = true := fun c hc => by
      simp [close.2 c hc]
    have hnull := afterNull?_itemsText items close ('\n' :: rest)
    rw [Printed.text, Printed.value]
    simp only [List.append_assoc, List.cons_append, List.nil_append] at hnull ⊢
    rw [readValue, if_neg (by decide), if_pos rfl, hnull]
    show readList [] [] _ = _
    rw [readList_itemsText (fun _ hc => by cases hc) hclose items, List.append_nil,
      readList_skips hskip, readList_last, List.reverse_reverse]

theorem isBlank_of_isInlineBlank {c : Char} (h : isInlineBlank c = true) : Text.isBlank c = true := by
  rw [isInlineBlank, Bool.or_eq_true, beq_iff_eq, beq_iff_eq] at h
  rcases h with rfl | rfl <;> decide

theorem Printed.dropWhile_isInlineBlank (p : Printed) (rest : List Char) :
    (p.text ++ rest).dropWhile isInlineBlank = p.text ++ rest := by
  obtain ⟨c, more, htext, hc⟩ := p.exists_text_eq_cons
  have hinline : ¬ isInlineBlank c = true := fun h => by
    simpa [isBlank_of_isInlineBlank h] using hc.not_blank
  rw [htext, List.cons_append, List.dropWhile_cons_of_neg hinline]

/-- A name ends where the blanks before the sign begin. -/
theorem span_isNameChar {before : List Char} (h : ∀ c ∈ before, isInlineBlank c = true)
    (rest : List Char) :
    (before ++ '=' :: rest).takeWhile isNameChar = [] ∧
      (before ++ '=' :: rest).dropWhile isNameChar = before ++ '=' :: rest := by
  cases before with
  | nil => exact ⟨rfl, rfl⟩
  | cons c before =>
    have hc : ¬ isNameChar c = true := by
      simp [isNameChar, isBlank_of_isInlineBlank (h c List.mem_cons_self)]
    exact ⟨List.takeWhile_cons_of_neg hc, List.dropWhile_cons_of_neg hc⟩

theorem readAssignment_text (name : String) (before after : InlineBlanks) (p : Printed)
    (rest : List Char) :
    readAssignment name (before.1 ++ '=' :: (after.1 ++ (p.text ++ '\n' :: rest))) =
      .ok (p.value, '\n' :: rest) := by
  have hsign : ('=' :: (after.1 ++ (p.text ++ '\n' :: rest))).dropWhile isInlineBlank =
      '=' :: (after.1 ++ (p.text ++ '\n' :: rest)) := List.dropWhile_cons_of_neg (by decide)
  rw [readAssignment, List.dropWhile_append_of_pos before.2, hsign]
  show readValue _ = _
  rw [List.dropWhile_append_of_pos after.2, p.dropWhile_isInlineBlank, readValue_text]

theorem readEntries_blank {c : Char} (h : Text.isBlank c = true) (rest : List Char) :
    readEntries (c :: rest) = readEntries rest := by
  rw [readEntries.eq_def]
  exact if_pos h

theorem readEntries_named {c : Char} {rest after : List Char} {v : RawValue}
    (hc : isNameChar c = true)
    (h : readAssignment (String.ofList (c :: rest.takeWhile isNameChar))
      (rest.dropWhile isNameChar) = .ok (v, after)) :
    readEntries (c :: rest) =
      (readEntries after).map ((String.ofList (c :: rest.takeWhile isNameChar), v) :: ·) := by
  simp only [isNameChar, Bool.and_eq_true, Bool.not_eq_true', bne_iff_ne] at hc
  rw [readEntries.eq_def]
  dsimp only
  rw [if_neg (by simp [hc.1]), if_neg hc.2]
  split
  · next herror => rw [h] at herror; cases herror
  · next hok =>
    rw [h] at hok
    obtain ⟨rfl, rfl⟩ := Prod.mk.inj (Except.ok.inj hok)
    rfl

/-- An entry at the front is read, and what follows its line is read on. -/
theorem readEntries_text (e : PrintedEntry) (rest : List Char) :
    readEntries (e.text ++ rest) = (readEntries rest).map (e.entry :: ·) := by
  obtain ⟨c, chars, hname⟩ : ∃ c chars, e.name.toList = c :: chars := by
    cases h : e.name.toList with
    | nil => exact absurd (String.toList_eq_nil_iff.1 h) e.name_ne_empty
    | cons c chars => exact ⟨c, chars, rfl⟩
  have hchars := e.nameChars
  rw [hname] at hchars
  have hmore : ∀ d ∈ chars, isNameChar d = true := fun d hd => hchars d (List.mem_cons_of_mem _ hd)
  have htext : e.text ++ rest =
      c :: (chars ++ (e.before.1 ++ '=' :: (e.after.1 ++ (e.printed.text ++ '\n' :: rest)))) := by
    rw [PrintedEntry.text, hname]
    simp
  obtain ⟨htake, hdrop⟩ := span_isNameChar e.before.2 (e.after.1 ++ (e.printed.text ++ '\n' :: rest))
  have hread := readAssignment_text e.name e.before e.after e.printed rest
  have hline : Text.isBlank '\n' = true := by decide
  rw [htext, readEntries_named (v := e.printed.value) (hchars c List.mem_cons_self)]
  · rw [List.takeWhile_append_of_pos hmore, htake, List.append_nil, ← hname, String.ofList_toList,
      readEntries_blank hline, PrintedEntry.entry]
  · rw [List.takeWhile_append_of_pos hmore, htake, List.append_nil, ← hname, String.ofList_toList,
      List.dropWhile_append_of_pos hmore, hdrop]
    exact hread

theorem readEntries_flatMap (entries : List PrintedEntry) :
    readEntries (entries.flatMap PrintedEntry.text) = .ok (entries.map PrintedEntry.entry) := by
  induction entries with
  | nil => rw [List.flatMap_nil, readEntries.eq_def, List.map_nil]
  | cons e entries ih =>
    rw [List.flatMap_cons, readEntries_text, ih]
    rfl

/-- A printed listing is read back, entry after entry. -/
theorem read_write (entries : List PrintedEntry) :
    read (write entries) = .ok (entries.map PrintedEntry.entry) := by
  rw [read, write, String.toList_ofList, readEntries_flatMap]
  rfl

def onNewLine : Blanks := .of ['\n', ' '] rfl

def noBlanks : Blanks := .of [] rfl

def oneSpace : InlineBlanks := .of [' '] rfl

/-- Authors on lines of their own, the second of them a list with a number and a null marker. -/
def nestedAuthors : PrintedEntry where
  name := "kMDItemAuthors"
  name_ne_empty := by decide
  nameChars := List.all_eq_true.1 rfl
  before := oneSpace
  after := oneSpace
  printed :=
    .array
      [(onNewLine, .string "a \"b\""),
        (onNewLine, .array [(noBlanks, .integer (-7)), (onNewLine, .null)] noBlanks)]
      onNewLine

theorem read_write_nestedAuthors :
    write [nestedAuthors] =
        "kMDItemAuthors = (\n \"a \\\"b\\\"\",\n (-7,\n (null))\n )\n" ∧
      read (write [nestedAuthors]) =
        .ok [("kMDItemAuthors",
          .array [.string "a \"b\"", .array [.integer (-7), .unsupported "null"]])] := by
  refine ⟨?_, ?_⟩
  · decide +kernel
  · exact read_write [nestedAuthors]

end Listing

end MetadataSearch
