import Mathlib.Algebra.Order.Field.Power
import Mathlib.Data.Nat.Cast.Field
import Mathlib.Data.Rat.Cast.Order
import Mathlib.Tactic.FieldSimp
import Mathlib.Tactic.Ring
import MetadataSearch.Binary64

/-!
# Exact values of doubles

A finite double denotes a rational number. `Binary64.denoted?` takes it from the rank, as so many units;
`Interchange.denoted?` takes it from the sign, the exponent and the fraction in the 64 bits of the
interchange form, by the rules of IEEE 754.

**Theorem (`denoted?_ofBits`).** Both are the same number, for every pattern of 64 bits.

Doubles with an integral value are those whose units divide (`isWhole_iff`), and cutting such a double
changes nothing (`truncate?_of_integral`). With the biased exponent 1075 the last place of a significand is
worth one. So from there on every double is integral, and a double with a fraction is below `2 ^ 52`
(`abs_lt_of_not_integral`).
-/

namespace MetadataSearch

/-! ## Sixty-four bits -/

namespace Interchange

/-- The eleven bits behind the sign, biased by 1023. -/
def exponent (bits : BitVec 64) : Nat := (bits.extractLsb' 52 11).toNat

/-- The last 52 bits. -/
def fraction (bits : BitVec 64) : Nat := (bits.extractLsb' 0 52).toNat

/-- The significand has a leading one, except with the exponent zero, which is that of zero and of the
subnormal numbers. -/
def magnitude (bits : BitVec 64) : ℚ :=
  if exponent bits = 0 then fraction bits / 2 ^ 52 * (2 : ℚ) ^ (-1022 : ℤ)
  else (1 + fraction bits / 2 ^ 52) * (2 : ℚ) ^ ((exponent bits : ℤ) - 1023)

/-- The number that the bits stand for; none if all bits of the exponent are set, as for infinities and
NaNs. -/
def denoted? (bits : BitVec 64) : Option ℚ :=
  if exponent bits = 2047 then none
  else some (if bits.msb then -magnitude bits else magnitude bits)

end Interchange

namespace Binary64

/-- The number that a finite double denotes. Both zeros denote zero. -/
def denoted? : Binary64 → Option ℚ
  | .finite negative rank =>
    let magnitude : ℚ := units rank / unitsPerOne
    some (if negative then -magnitude else magnitude)
  | _ => none

/-! ## Units of a rank -/

/-- The exponent goes by a name, so that no step evaluates the power. -/
theorem exists_unitsPerOne_eq : ∃ places, places = 1074 ∧ unitsPerOne = 2 ^ places :=
  ⟨1074, rfl, by decide +kernel⟩

theorem unitsPerOne_pos : 0 < unitsPerOne := by decide +kernel

theorem cast_unitsPerOne_pos : (0 : ℚ) < unitsPerOne :=
  Nat.cast_pos.2 unitsPerOne_pos

theorem cast_unitsPerOne : (unitsPerOne : ℚ) = 2 ^ 52 * 2 ^ 1022 := by
  obtain ⟨places, hplaces, hunits⟩ := exists_unitsPerOne_eq
  rw [hunits, Nat.cast_pow, Nat.cast_ofNat, ← pow_add, hplaces]

theorem units_of_lt {rank : Nat} (h : rank < ranksPerExponent) : units rank = rank :=
  if_pos h

theorem units_of_le {rank : Nat} (h : ranksPerExponent ≤ rank) :
    units rank =
      (rank % ranksPerExponent + ranksPerExponent) * 2 ^ (rank / ranksPerExponent - 1) :=
  if_neg (Nat.not_lt.2 h)

/-- Where the last place of a significand is worth one or more, every magnitude is whole. -/
theorem unitsPerOne_dvd_units {rank : Nat} (h : 1075 * ranksPerExponent ≤ rank) :
    unitsPerOne ∣ units rank := by
  have hexponent : 1075 ≤ rank / ranksPerExponent := (Nat.le_div_iff_mul_le (by decide)).2 h
  have hle : ranksPerExponent ≤ rank :=
    (Nat.le_mul_of_pos_left ranksPerExponent (by decide)).trans h
  obtain ⟨places, hplaces, hunits⟩ := exists_unitsPerOne_eq
  rw [units_of_le hle, hunits]
  apply Dvd.dvd.mul_left
  apply Nat.pow_dvd_pow
  omega

/-- Below that rank a magnitude is below `2 ^ 52`. -/
theorem units_lt {rank : Nat} (h : rank < 1075 * ranksPerExponent) :
    units rank < ranksPerExponent * unitsPerOne := by
  by_cases hsmall : rank < ranksPerExponent
  · rw [units_of_lt hsmall]
    exact hsmall.trans_le (Nat.le_mul_of_pos_right ranksPerExponent unitsPerOne_pos)
  · have hexponent : rank / ranksPerExponent < 1075 := (Nat.div_lt_iff_lt_mul (by decide)).2 h
    have hsignificand : rank % ranksPerExponent + ranksPerExponent < 2 ^ 53 := by
      have hlt : rank % ranksPerExponent < ranksPerExponent := Nat.mod_lt rank (by decide)
      have htwice : ranksPerExponent + ranksPerExponent = 2 ^ 53 := by decide
      omega
    obtain ⟨places, hplaces, hunits⟩ := exists_unitsPerOne_eq
    rw [units_of_le (Nat.le_of_not_lt hsmall), hunits]
    calc (rank % ranksPerExponent + ranksPerExponent) * 2 ^ (rank / ranksPerExponent - 1)
        < 2 ^ 53 * 2 ^ (rank / ranksPerExponent - 1) :=
          Nat.mul_lt_mul_of_pos_right hsignificand (Nat.two_pow_pos _)
      _ = 2 ^ (53 + (rank / ranksPerExponent - 1)) := (Nat.pow_add 2 _ _).symm
      _ ≤ 2 ^ (52 + places) := Nat.pow_le_pow_right (by decide) (by omega)
      _ = ranksPerExponent * 2 ^ places := Nat.pow_add 2 52 places

/-! ## Bits and ranks -/

theorem exponent_eq (bits : BitVec 64) :
    Interchange.exponent bits = bits.toNat % signBit / ranksPerExponent := by
  rw [Interchange.exponent, BitVec.extractLsb'_toNat, Nat.shiftRight_eq_div_pow, signBit,
    ranksPerExponent]
  omega

theorem fraction_eq (bits : BitVec 64) :
    Interchange.fraction bits = bits.toNat % signBit % ranksPerExponent := by
  rw [Interchange.fraction, BitVec.extractLsb'_toNat, Nat.shiftRight_zero, signBit,
    ranksPerExponent]
  omega

theorem msb_eq (bits : BitVec 64) : bits.msb = (bits.toNat / signBit % 2 == 1) := by
  have hlt : bits.toNat < 2 ^ 64 := bits.isLt
  rw [BitVec.msb_eq_decide, Bool.eq_iff_iff, decide_eq_true_eq, beq_iff_eq, signBit]
  omega

theorem exponent_eq_iff (bits : BitVec 64) :
    Interchange.exponent bits = 2047 ↔ finiteRanks ≤ bits.toNat % signBit := by
  rw [exponent_eq, signBit, ranksPerExponent, finiteRanks]
  omega

/-- The magnitude of the bits is that of the rank behind the sign. -/
theorem magnitude_eq (bits : BitVec 64) :
    Interchange.magnitude bits = units (bits.toNat % signBit) / unitsPerOne := by
  have hexponent := exponent_eq bits
  have hfraction := fraction_eq bits
  generalize bits.toNat % signBit = rank at hexponent hfraction
  rw [Interchange.magnitude, hexponent, hfraction, cast_unitsPerOne]
  by_cases hsmall : rank < ranksPerExponent
  · rw [units_of_lt hsmall, if_pos (Nat.div_eq_of_lt hsmall), Nat.mod_eq_of_lt hsmall, zpow_neg,
      zpow_ofNat]
    field_simp
  · have hle : ranksPerExponent ≤ rank := Nat.le_of_not_lt hsmall
    obtain ⟨k, hk⟩ : ∃ k, rank / ranksPerExponent = k + 1 :=
      Nat.exists_eq_succ_of_ne_zero (Nat.div_pos hle (by decide)).ne'
    have hpower : (2 : ℚ) ^ (((k + 1 : Nat) : ℤ) - 1023) = 2 ^ k / 2 ^ 1022 := by
      rw [show ((k + 1 : Nat) : ℤ) - 1023 = (k : ℤ) - (1022 : Nat) by push_cast; ring,
        zpow_sub₀ two_ne_zero, zpow_natCast, zpow_natCast]
    rw [units_of_le hle, hk, if_neg (Nat.succ_ne_zero k), Nat.add_sub_cancel, hpower,
      show ranksPerExponent = 2 ^ 52 from rfl]
    push_cast
    field_simp
    ring

/-- **The number of 64 bits is the number of the double that they give.** -/
theorem denoted?_ofBits (bits : BitVec 64) :
    (ofBits bits.toNat).denoted? = Interchange.denoted? bits := by
  rw [ofBits, Interchange.denoted?, msb_eq, magnitude_eq]
  by_cases hfinite : bits.toNat % signBit < finiteRanks
  · have hexponent : Interchange.exponent bits ≠ 2047 := by
      intro h
      exact Nat.not_le.2 hfinite ((exponent_eq_iff bits).1 h)
    rw [dif_pos hfinite, if_neg hexponent]
    rfl
  · rw [dif_neg hfinite, if_pos ((exponent_eq_iff bits).2 (Nat.le_of_not_lt hfinite))]
    split <;> rfl

/-! ## Integral values -/

variable {x : Binary64} {q : ℚ}

theorem exists_rank_of_denoted? (hq : x.denoted? = some q) :
    ∃ negative rank, x = .finite negative rank ∧ |q| = units rank / unitsPerOne := by
  cases x with
  | nan => cases hq
  | infinite negative => cases hq
  | finite negative rank =>
    obtain rfl := Option.some.inj hq
    have hnonneg : (0 : ℚ) ≤ units rank / unitsPerOne :=
      div_nonneg (Nat.cast_nonneg _) (Nat.cast_nonneg _)
    refine ⟨negative, rank, rfl, ?_⟩
    cases negative with
    | true => exact (abs_neg _).trans (abs_of_nonneg hnonneg)
    | false => exact abs_of_nonneg hnonneg

theorem isWhole_finite_iff {negative : Bool} {rank : Fin finiteRanks} :
    isWhole (.finite negative rank) = true ↔ unitsPerOne ∣ units rank := by
  rw [isWhole, beq_iff_eq, Nat.dvd_iff_mod_eq_zero]

theorem units_div_of_dvd {rank : Nat} (h : unitsPerOne ∣ units rank) :
    (units rank : ℚ) / unitsPerOne = ((units rank / unitsPerOne : Nat) : ℤ) := by
  rw [Int.cast_natCast, Nat.cast_div h cast_unitsPerOne_pos.ne']

theorem isWhole_iff (hq : x.denoted? = some q) : x.isWhole = true ↔ ∃ n : ℤ, q = n := by
  obtain ⟨negative, rank, rfl, habs⟩ := exists_rank_of_denoted? hq
  rw [isWhole_finite_iff]
  constructor
  · intro hdvd
    rw [units_div_of_dvd hdvd] at habs
    rcases abs_choice q with hpos | hneg
    · exact ⟨(units rank / unitsPerOne : Nat), by rw [← habs, hpos]⟩
    · exact ⟨-(units rank / unitsPerOne : Nat), by rw [Int.cast_neg, ← habs, hneg, neg_neg]⟩
  · rintro ⟨n, rfl⟩
    have hunits : (units rank : ℚ) = (unitsPerOne * n.natAbs : Nat) := by
      rw [Nat.cast_mul, Nat.cast_natAbs, Int.cast_abs, habs,
        mul_div_cancel₀ _ cast_unitsPerOne_pos.ne']
    exact ⟨n.natAbs, Nat.cast_injective hunits⟩

/-- An integral value is not changed by cutting it. -/
theorem truncate?_of_integral {n : ℤ} (hq : x.denoted? = some (n : ℚ)) : x.truncate? = some n := by
  have hwhole : x.isWhole = true := (isWhole_iff hq).2 ⟨n, rfl⟩
  obtain ⟨negative, rank, rfl, -⟩ := exists_rank_of_denoted? hq
  rw [denoted?, units_div_of_dvd (isWhole_finite_iff.1 hwhole)] at hq
  apply congrArg some
  apply Int.cast_injective (α := ℚ)
  rw [apply_ite Int.cast, Int.cast_neg]
  exact Option.some.inj hq

/-- A double with a fraction is small. -/
theorem abs_lt_of_not_integral (hq : x.denoted? = some q) (h : ¬∃ n : ℤ, q = n) : |q| < 2 ^ 52 := by
  have hpart : ¬x.isWhole = true := mt (isWhole_iff hq).1 h
  obtain ⟨negative, rank, rfl, habs⟩ := exists_rank_of_denoted? hq
  have hrank : rank.val < 1075 * ranksPerExponent := by
    by_contra hge
    apply hpart
    rw [isWhole_finite_iff]
    exact unitsPerOne_dvd_units (Nat.le_of_not_lt hge)
  have hranks : (2 : ℚ) ^ 52 = (ranksPerExponent : Nat) := by norm_num [ranksPerExponent]
  rw [habs, div_lt_iff₀ cast_unitsPerOne_pos, hranks]
  exact_mod_cast units_lt hrank

end Binary64

end MetadataSearch
