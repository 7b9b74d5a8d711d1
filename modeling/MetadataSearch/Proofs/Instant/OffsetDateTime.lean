import MetadataSearch.Proofs.Instant.RoundTrip
import MetadataSearch.Proofs.Text.Trimming

/-!
# Dates with an offset

**Theorem (`readOffsetDateTime?_writeWithOffset`).** A whole second of a year with four digits, written
with blanks between date, time of day and the offset of UTC, is read back.

The loose readers begin with blanks, of which none stand before a digit (`blanks_padded`), and take as
many digits as there are, up to the number that was written. A whole number is never taken for a
date: its only sign stands at the front, and a date needs one behind its year
(`readOffsetDateTime?_of_digits`).
-/

namespace MetadataSearch.Instant

open Reader

/-- `YYYY-MM-DD HH:MM:SS +0000`, for years with four digits. -/
def writeWithOffset (t : Instant) : List Char :=
  let date := Date.ofDayNumber t.day
  let second := (t.seconds % secondsPerDay).toNat
  Numeral.padded 4 date.year.toNat ++ '-' :: (Numeral.padded 2 date.month ++ '-' ::
    (Numeral.padded 2 date.day ++ ' ' :: (Numeral.padded 2 (second / 3600) ++ ':' ::
    (Numeral.padded 2 (second / 60 % 60) ++ ':' ::
    (Numeral.padded 2 (second % 60 + if t.isLeap then 1 else 0) ++ " +0000".toList)))))

/-- A whole second on the clock, in a year with four digits and no sign. -/
structure FourDigitSecond (t : Instant) : Prop where
  civil : t.Civil
  whole : t.withoutFraction = t
  year : 0 ≤ t.year ∧ t.year ≤ 9999

/-! ## Loose readers -/

theorem exists_padded_eq_cons (width n : Nat) :
    ∃ c digits, Numeral.padded width n = c :: digits ∧ c.isDigit = true := by
  cases h : Numeral.padded width n with
  | nil =>
    have hdigits : Numeral.ofNat n = [] := (List.append_eq_nil_iff.1 h).2
    exact absurd hdigits Nat.toDigits_ne_nil
  | cons c digits => exact ⟨c, digits, rfl, Numeral.isDigit_of_mem_padded (h ▸ List.mem_cons_self)⟩

theorem blanks_padded (width n : Nat) (rest : List Char) :
    blanks (Numeral.padded width n ++ rest) = some ((), Numeral.padded width n ++ rest) := by
  obtain ⟨c, digits, heq, hc⟩ := exists_padded_eq_cons width n
  rw [blanks, heq, List.cons_append, Text.trimLeft_cons_of_not_blank]
  simp [Text.isBlank_of_isDigit hc]

theorem looseTwo_padded {n : Nat} (hn : n < 10 ^ 2) (rest : List Char) :
    looseTwo (Numeral.padded 2 n ++ rest) = some (n, rest) := by
  rw [looseTwo, bind_of_eq_some (blanks_padded _ _ rest)]
  exact number_padded_of_le (by decide) (by decide) hn rest

theorem looseYear_padded {n : Nat} (hn : n < 10 ^ 4) (rest : List Char) :
    looseYear (Numeral.padded 4 n ++ rest) = some ((n : Int), rest) := by
  rw [looseYear, bind_of_eq_some (blanks_padded _ _ rest)]
  have hnumber := number_padded_of_le (show 1 ≤ 4 by decide) (by decide) hn rest
  obtain ⟨c, digits, heq, hc⟩ := exists_padded_eq_cons 4 n
  rw [heq, List.cons_append] at hnumber ⊢
  split
  case h_1 => exact absurd hc (by simp_all)
  case h_2 => exact absurd hc (by simp_all)
  case h_3 => rw [hnumber]; rfl

theorem blanks_cons_blank {c : Char} (hc : Text.isBlank c = true) (text : List Char) :
    blanks (c :: text) = blanks text := by
  rw [blanks, blanks, Text.trimLeft_cons_blank hc]

/-- The offset of UTC. -/
theorem signedOffset_zero : signedOffset colonsOrBlanks "+0000".toList = some (0, []) := by
  decide +kernel

/-! ## Reading back -/

/-- Every field is read as it was written, blanks or not before it. -/
theorem offsetDateTime_fields {year month day hour minute second : Nat} (hyear : year < 10 ^ 4)
    (hmonth : month < 10 ^ 2) (hday : day < 10 ^ 2) (hhour : hour < 10 ^ 2)
    (hminute : minute < 10 ^ 2) (hsecond : second < 10 ^ 2) {t u : Instant}
    (ht : ofCivil? ⟨year, month, day⟩ hour minute second 0 = some t) (hu : t.atOffset? 0 = some u) :
    readOffsetDateTime? (Numeral.padded 4 year ++ '-' :: (Numeral.padded 2 month ++ '-' ::
      (Numeral.padded 2 day ++ ' ' :: (Numeral.padded 2 hour ++ ':' ::
      (Numeral.padded 2 minute ++ ':' :: (Numeral.padded 2 second ++ " +0000".toList)))))) =
        some u := by
  rw [readOffsetDateTime?, whole?_eq_some]
  have hdate : ∀ rest, looseDate (Numeral.padded 4 year ++ '-' :: (Numeral.padded 2 month ++ '-' ::
      (Numeral.padded 2 day ++ rest))) = some (⟨year, month, day⟩, rest) := by
    intro rest
    rw [looseDate, bind_of_eq_some (looseYear_padded hyear _), bind_of_eq_some (oneOf_cons rfl _),
      bind_of_eq_some (looseTwo_padded hmonth _), bind_of_eq_some (oneOf_cons rfl _),
      bind_of_eq_some (looseTwo_padded hday _)]
    rfl
  have htime : ∀ rest, looseTimeOn ⟨year, month, day⟩ (Numeral.padded 2 hour ++ ':' ::
      (Numeral.padded 2 minute ++ ':' :: (Numeral.padded 2 second ++ rest))) = some (t, rest) := by
    intro rest
    rw [looseTimeOn, bind_of_eq_some (looseTwo_padded hhour _), bind_of_eq_some (oneOf_cons rfl _),
      bind_of_eq_some (looseTwo_padded hminute _), bind_of_eq_some (oneOf_cons rfl _),
      bind_of_eq_some (looseTwo_padded hsecond _)]
    exact given_eq_some.2 ⟨ht, rfl⟩
  have hblank : Text.isBlank ' ' = true := rfl
  have hsign : blanks " +0000".toList = some ((), "+0000".toList) := rfl
  have hspace := (blanks_cons_blank hblank _).trans (blanks_padded 2 hour (':' ::
    (Numeral.padded 2 minute ++ ':' :: (Numeral.padded 2 second ++ " +0000".toList))))
  rw [bind_of_eq_some (hdate _), bind_of_eq_some hspace, bind_of_eq_some (htime _),
    bind_of_eq_some hsign, bind_of_eq_some signedOffset_zero]
  exact given_eq_some.2 ⟨hu, rfl⟩

/-- **A date with an offset is read back.** -/
theorem readOffsetDateTime?_writeWithOffset {t : Instant} (h : t.FourDigitSecond) :
    readOffsetDateTime? t.writeWithOffset = some t := by
  obtain ⟨second, hsecond⟩ : ∃ second, second = (t.seconds % secondsPerDay).toNat := ⟨_, rfl⟩
  have hcivil := ofCivil?_write h.civil h.year hsecond
  have hrange : t.inRange = true := inRange_of_year h.year
  have hlt : second < 86400 := by
    unfold secondsPerDay at hsecond
    omega
  have hyear : 0 ≤ (Date.ofDayNumber t.day).year ∧ (Date.ofDayNumber t.day).year ≤ 9999 := h.year
  have hdate : (⟨((Date.ofDayNumber t.day).year.toNat : Int), (Date.ofDayNumber t.day).month,
      (Date.ofDayNumber t.day).day⟩ : Date) = Date.ofDayNumber t.day := by
    rw [Int.toNat_of_nonneg hyear.1]
  have hvalid := Date.isValid_ofDayNumber t.day
  simp only [Date.isValid, Bool.and_eq_true, decide_eq_true_eq] at hvalid
  have hlength := Date.daysInMonth_le (Date.ofDayNumber t.day).year (Date.ofDayNumber t.day).month
  rw [writeWithOffset, ← hsecond]
  refine offsetDateTime_fields (by omega) (by omega) (by omega) (by omega) (by omega)
    (by split <;> omega) (t := t) ?_ ?_
  · rw [hdate, hcivil, h.whole]
  · rw [atOffset?, if_pos (by decide), checked?, Int.sub_zero]
    exact if_pos hrange

/-! ## Whole numbers are no dates -/

/-- A text that has no sign behind its first character is no date. -/
theorem readOffsetDateTime?_of_digits {text : List Char}
    (h : ∀ c ∈ text.tail, c.isDigit = true) : readOffsetDateTime? text = none := by
  have hdate : looseDate text = none := by
    rw [Option.eq_none_iff_forall_ne_some]
    rintro ⟨date, rest⟩ hread
    obtain ⟨year, after, hyear, hread⟩ := bind_eq_some.1 hread
    obtain ⟨sign, left, hsign, -⟩ := bind_eq_some.1 hread
    obtain ⟨front, d, -, rfl⟩ := endsAtDigit_looseYear _ _ _ hyear
    have htail : ∀ c ∈ after, c ∈ (front ++ d :: after).tail := by
      cases front <;> simp +contextual
    -- The sign behind the year would be a digit.
    cases after with
    | nil => cases hsign
    | cons c after =>
      have hc : c.isDigit = true := h c (htail c List.mem_cons_self)
      have hdash : c ≠ '-' := by
        rintro rfl
        exact absurd hc (by decide)
      simp [oneOf, hdash] at hsign
  rw [readOffsetDateTime?, whole?, bind_of_eq_none hdate]

end MetadataSearch.Instant
