import Mathlib.Data.List.TakeWhile
import MetadataSearch.Proofs.Numeral.Digits
import MetadataSearch.Proofs.Text.Trimming

/-!
# Decimal fractions are rounded once

**Theorem (`ofDecimal_eq_ofRatio`).** The double of a decimal is its exact value rounded to nearest,
whatever its magnitude. Magnitudes that are recognised early, by their leading exponent, would be
rounded to zero or to an infinity as well: below `10 ^ -400` not even half a unit is reached, and from
`10 ^ 401` on the last finite rank is passed.

**Theorem (`readReal?_fractionText`).** So a numeral of digits with a point among them is read as the double
nearest to the fraction that it spells.
-/

namespace MetadataSearch

namespace Decimal

theorem lt_pow_digitCount (n : Nat) : n < 10 ^ digitCount n := by
  have hpos : 0 < digitCount n := Nat.length_toDigits_pos
  exact (Nat.length_toDigits_le_iff (by decide) hpos).1 (Nat.le_refl _)

theorem pow_le_of_lt_digitCount {n k : Nat} (hn : n ≠ 0) (h : k < digitCount n) : 10 ^ k ≤ n := by
  by_cases hk : k = 0
  · rw [hk, Nat.pow_zero]
    exact Nat.one_le_iff_ne_zero.2 hn
  · by_contra hlt
    have hle : digitCount n ≤ k :=
      (Nat.length_toDigits_le_iff (by decide) (Nat.pos_of_ne_zero hk)).2 (Nat.lt_of_not_le hlt)
    omega

end Decimal

namespace Binary64

/-! ## Far from the range of doubles -/

/-- What is less than half a unit is rounded to zero. -/
theorem nearestRank_of_small {num den : Nat} (h : 2 * (num * unitsPerOne) < den) :
    nearestRank num den = 0 := by
  have hscaled : num * unitsPerOne < den := by omega
  have hquotient : num * unitsPerOne / den = 0 := Nat.div_eq_of_lt hscaled
  have hround : roundHalfEven (num * unitsPerOne) den = 0 := by
    rw [roundHalfEven, hquotient, Nat.mod_eq_of_lt hscaled]
    exact if_pos h
  rw [nearestRank]
  simp only [hquotient, Nat.log2_zero, Nat.zero_sub, Nat.zero_mul, Nat.zero_add, Nat.pow_eq,
    Nat.pow_zero, Nat.mul_one, hround]

/-- Every power of two above the 53 bits of a significand moves the rank on by one exponent. -/
theorem le_nearestRank {num den bits : Nat} (hden : 0 < den)
    (h : 2 ^ (bits + 52) * den ≤ num * unitsPerOne) :
    bits * ranksPerExponent ≤ nearestRank num den := by
  have hquotient : 2 ^ (bits + 52) ≤ num * unitsPerOne / den := (Nat.le_div_iff_mul_le hden).2 h
  have hne : num * unitsPerOne / den ≠ 0 := by
    have := Nat.pow_pos (n := bits + 52) (Nat.zero_lt_two)
    omega
  have hlog : bits ≤ Nat.log2 (num * unitsPerOne / den) - 52 := by
    have := (Nat.le_log2 hne).2 hquotient
    omega
  calc bits * ranksPerExponent
      ≤ (Nat.log2 (num * unitsPerOne / den) - 52) * ranksPerExponent :=
        Nat.mul_le_mul_right _ hlog
    _ ≤ nearestRank num den := Nat.le_add_right _ _

theorem ofRatio_of_small (negative : Bool) {num den : Nat} (h : 2 * (num * unitsPerOne) < den) :
    ofRatio negative num den = ofRank negative 0 := by
  rw [ofRatio, nearestRank_of_small h]

theorem ofRatio_of_large (negative : Bool) {num den : Nat} (hden : 0 < den)
    (h : 10 ^ 401 * den ≤ num) : ofRatio negative num den = .infinite negative := by
  have hbits : 2 ^ (2047 + 52) ≤ 10 ^ 401 * unitsPerOne := by decide +kernel
  have hrank : 2047 * ranksPerExponent ≤ nearestRank num den := le_nearestRank hden <|
    calc 2 ^ (2047 + 52) * den
        ≤ 10 ^ 401 * unitsPerOne * den := Nat.mul_le_mul_right den hbits
      _ = 10 ^ 401 * den * unitsPerOne := Nat.mul_right_comm _ _ _
      _ ≤ num * unitsPerOne := Nat.mul_le_mul_right _ h
  have hfinite : finiteRanks = 2047 * ranksPerExponent := by decide
  rw [ofRatio, ofRank, dif_neg]
  omega

end Binary64

/-! ## Decimals -/

namespace Decimal

theorem tenPower_pos (e : Int) : 0 < (tenPower e).2 := by
  rw [tenPower]
  split
  · exact Nat.pow_pos (by decide)
  · exact Nat.zero_lt_one

/-- A leading digit that far behind the point is worth less than half a unit. -/
theorem lt_half_unit {c : Nat} {e : Int} (h : e + digitCount c - 1 < -400) :
    2 * (c * (tenPower e).1 * Binary64.unitsPerOne) < (tenPower e).2 := by
  obtain ⟨n, hn, hhalf⟩ : ∃ n, n = 400 ∧ 2 * Binary64.unitsPerOne ≤ 10 ^ n :=
    ⟨400, rfl, by decide +kernel⟩
  have hdigits : 0 < digitCount c := Nat.length_toDigits_pos
  have hnegative : e < 0 := by omega
  have hroom : digitCount c + n ≤ e.natAbs := by omega
  rw [tenPower, if_pos hnegative]
  calc 2 * (c * 1 * Binary64.unitsPerOne)
      = c * (2 * Binary64.unitsPerOne) := by rw [Nat.mul_one, Nat.mul_left_comm]
    _ ≤ c * 10 ^ n := Nat.mul_le_mul_left c hhalf
    _ < 10 ^ digitCount c * 10 ^ n :=
        Nat.mul_lt_mul_of_pos_right (lt_pow_digitCount c) (Nat.pow_pos (by decide))
    _ = 10 ^ (digitCount c + n) := (Nat.pow_add 10 _ _).symm
    _ ≤ 10 ^ e.natAbs := Nat.pow_le_pow_right (by decide) hroom

/-- A decimal is worth at least its leading digit. -/
theorem pow_le_of_leading {c k : Nat} {e : Int} (hc : c ≠ 0) (h : k < e + digitCount c) :
    10 ^ k * (tenPower e).2 ≤ c * (tenPower e).1 := by
  rw [tenPower]
  split
  case isTrue =>
    rw [Nat.mul_one]
    calc 10 ^ k * 10 ^ e.natAbs
        = 10 ^ (k + e.natAbs) := (Nat.pow_add 10 _ _).symm
      _ ≤ c := pow_le_of_lt_digitCount hc (by omega)
  case isFalse =>
    have hdigits : 0 < digitCount c := Nat.length_toDigits_pos
    rw [Nat.mul_one]
    calc 10 ^ k
        ≤ 10 ^ (k - e.natAbs + e.natAbs) := Nat.pow_le_pow_right (by decide) (by omega)
      _ = 10 ^ (k - e.natAbs) * 10 ^ e.natAbs := Nat.pow_add 10 _ _
      _ ≤ c * 10 ^ e.natAbs :=
          Nat.mul_le_mul_right _ (pow_le_of_lt_digitCount hc (by omega))

end Decimal

namespace Binary64

/-- **The double of a decimal is its exact value, rounded.** -/
theorem ofDecimal_eq_ofRatio (negative : Bool) (d : Decimal) :
    ofDecimal negative d =
      ofRatio negative (d.coefficient * (Decimal.tenPower d.exponent).1)
        (Decimal.tenPower d.exponent).2 := by
  rw [ofDecimal]
  dsimp only
  split
  case isTrue hearly =>
    rw [Bool.or_eq_true, beq_iff_eq, decide_eq_true_eq] at hearly
    refine (ofRatio_of_small negative ?_).symm
    rcases hearly with hzero | hsmall
    · rw [hzero, Nat.zero_mul, Nat.zero_mul, Nat.mul_zero]
      exact Decimal.tenPower_pos d.exponent
    · exact Decimal.lt_half_unit hsmall
  case isFalse hnot =>
    rw [Bool.or_eq_true, beq_iff_eq, not_or] at hnot
    split
    case isTrue hlarge =>
      have hleading : (401 : Nat) < d.exponent + Decimal.digitCount d.coefficient := by omega
      exact (ofRatio_of_large negative (Decimal.tenPower_pos d.exponent)
        (Decimal.pow_le_of_leading hnot.1 hleading)).symm
    case isFalse => rfl

end Binary64

/-! ## Numerals -/

namespace Numeral

/-- Digits, and more of them behind a point if there is one. -/
def fractionText (whole : List Char) : (fraction : Option (List Char)) → List Char
  | none => whole
  | some digits => whole ++ '.' :: digits

variable {whole : List Char} {fraction : Option (List Char)}

/-- The decimal with so many of its digits behind the point. -/
theorem ofDecimal_fraction (negative : Bool) (coefficient places : Nat) :
    Binary64.ofDecimal negative ⟨coefficient, 0 - places⟩ =
      Binary64.ofRatio negative coefficient (10 ^ places) := by
  have hpower : Decimal.tenPower (0 - places) = (1, 10 ^ places) := by
    cases places with
    | zero => rfl
    | succ places =>
      have hplaces : (0 - ((places + 1 : Nat) : Int)).natAbs = places + 1 := by omega
      rw [Decimal.tenPower, if_pos (by omega), hplaces]
      rfl
  rw [Binary64.ofDecimal_eq_ofRatio, hpower, Nat.mul_one]

theorem readMagnitude?_fractionText (negative : Bool) (hne : whole ≠ [])
    (hwhole : ∀ c ∈ whole, c.isDigit = true)
    (hfraction : ∀ c ∈ fraction.getD [], c.isDigit = true) :
    readMagnitude? negative (fractionText whole fraction) =
      some (Binary64.ofRatio negative (value (whole ++ fraction.getD []))
        (10 ^ (fraction.getD []).length)) := by
  have hempty : whole.isEmpty = false := by simpa using hne
  rw [← ofDecimal_fraction]
  cases fraction with
  | none =>
    rw [fractionText, readMagnitude?, List.takeWhile_eq_self_iff.2 hwhole,
      List.dropWhile_eq_nil_iff.2 hwhole]
    simp only [hempty, Bool.false_and]
    rfl
  | some digits =>
    have hdigits : ∀ c ∈ digits, c.isDigit = true := hfraction
    have hpoint : ('.' :: digits).head?.any Char.isDigit = false := rfl
    obtain ⟨htake, hdrop⟩ := Text.takeWhile_append hwhole hpoint
    rw [fractionText, readMagnitude?, htake, hdrop]
    simp only [hempty, Bool.false_and, List.takeWhile_eq_self_iff.2 hdigits,
      List.dropWhile_eq_nil_iff.2 hdigits]
    rfl

theorem exists_fractionText_eq_cons (hne : whole ≠ []) (hwhole : ∀ c ∈ whole, c.isDigit = true)
    (fraction : Option (List Char)) :
    ∃ c rest, fractionText whole fraction = c :: rest ∧ c.isDigit = true := by
  obtain ⟨c, more, rfl⟩ := List.exists_cons_of_ne_nil hne
  have hc : c.isDigit = true := hwhole c List.mem_cons_self
  cases fraction with
  | none => exact ⟨c, more, rfl, hc⟩
  | some digits => exact ⟨c, more ++ '.' :: digits, rfl, hc⟩

/-- A text that starts with a digit has no sign. -/
theorem readReal?_cons_digit {c : Char} (hc : c.isDigit = true) (rest : List Char) :
    readReal? (c :: rest) =
      (readMagnitude? false (c :: rest)).orElse fun _ => readName? false (c :: rest) := by
  have hne : ∀ d : Char, d.isDigit = false → ∀ more, c :: rest = d :: more → False :=
    fun d hd more heq => ne_of_isDigit hc hd (List.cons.inj heq).1
  rw [readReal?.eq_3 (c :: rest) (hne '-' rfl) (hne '+' rfl)]

/-- **A numeral is read as the double nearest to the fraction that it spells.** -/
theorem readReal?_fractionText (negative : Bool) (hne : whole ≠ [])
    (hwhole : ∀ c ∈ whole, c.isDigit = true)
    (hfraction : ∀ c ∈ fraction.getD [], c.isDigit = true) :
    readReal? ((if negative then ['-'] else []) ++ fractionText whole fraction) =
      some (Binary64.ofRatio negative (value (whole ++ fraction.getD []))
        (10 ^ (fraction.getD []).length)) := by
  have hread := readMagnitude?_fractionText negative hne hwhole hfraction
  obtain ⟨c, rest, htext, hc⟩ := exists_fractionText_eq_cons hne hwhole fraction
  rw [htext] at hread ⊢
  cases negative with
  | true =>
    show (readMagnitude? true (c :: rest)).orElse (fun _ => readName? true (c :: rest)) = _
    rw [hread]
    rfl
  | false =>
    show readReal? (c :: rest) = _
    rw [readReal?_cons_digit hc, hread]
    rfl

end Numeral

end MetadataSearch
