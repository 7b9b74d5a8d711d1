import Mathlib.Tactic.Linarith
import Mathlib.Tactic.NormNum
import MetadataSearch.RawValue
import MetadataSearch.Proofs.Numeral.ExactValues

/-!
# Numbers of engines

An engine gives a number as a double, with a mark if it is meant as one. A number that is integral and not
marked is held as a 64-bit integer.

**Theorem (`RawValue.denoted_number`).** A finite number is held as the double that it came in exactly if it
is marked or has a fraction. Its value is kept exactly if it is marked or lies between `-2 ^ 63`, included,
and `2 ^ 63`, excluded. Any other number is moved to the end of the 64-bit integers on its side. Typing what
is held never changes its value.

So `-2 ^ 63` is kept and `2 ^ 63` is not, although both are doubles. A number with a fraction is far inside
of these bounds (`Binary64.abs_lt_of_not_integral`): only integral numbers are moved.
-/

namespace MetadataSearch

/-! ## What values denote -/

/-- The number that a typed value denotes, if it is a finite one. -/
def Value.denoted? : Value → Option ℚ
  | .integer n => some n.toInt
  | .real x => x.denoted?
  | _ => none

namespace RawValue

/-- The number that a raw value denotes, if it is a finite one. -/
def denoted? : RawValue → Option ℚ
  | .integer n => some n.toInt
  | .real x => x.denoted?
  | _ => none

/-- Typing a raw value does not change the number. -/
theorem denoted?_of_classify? {r : RawValue} {v : Value} (h : r.classify? = some v) :
    v.denoted? = r.denoted? := by
  cases r with
  | unsupported shape => cases h
  | _ =>
    obtain rfl := Option.some.inj h
    rfl

theorem classify?_eq_real_iff {r : RawValue} {x : Binary64} :
    r.classify? = some (.real x) ↔ r = .real x := by
  cases r <;> simp [classify?]

/-! ## The nearest 64-bit integer -/

theorem clampInt64_of_lt {n : ℤ} (h : n < -2 ^ 63) : clampInt64 n = Int64.minValue := by
  rw [clampInt64, Int64.toInt_minValue, if_pos h]

theorem clampInt64_of_le {n : ℤ} (h : 2 ^ 63 ≤ n) : clampInt64 n = Int64.maxValue := by
  rw [clampInt64, Int64.toInt_minValue, Int64.toInt_maxValue, if_neg (by omega), if_pos (by omega)]

theorem toInt_clampInt64_iff {n : ℤ} : (clampInt64 n).toInt = n ↔ -2 ^ 63 ≤ n ∧ n < 2 ^ 63 := by
  constructor
  · intro h
    rw [← h]
    exact ⟨Int64.le_toInt _, Int64.toInt_lt _⟩
  · rintro ⟨hle, hlt⟩
    rw [clampInt64, Int64.toInt_minValue, Int64.toInt_maxValue, if_neg (by omega),
      if_neg (by omega), Int64.toInt_ofInt_of_le hle hlt]

/-! ## Which numbers keep their value -/

variable {x : Binary64} {q : ℚ}

theorem exists_classify?_number (x : Binary64) (isReal : Bool) :
    ∃ v, (number x isReal).classify? = some v := by
  rw [number]
  split <;> exact ⟨_, rfl⟩

/-- What becomes of a finite number. -/
theorem number_cases (isReal : Bool) (hq : x.denoted? = some q) :
    ((isReal = true ∨ ¬∃ n : ℤ, q = n) ∧ number x isReal = .real x) ∨
      (isReal = false ∧ ∃ n : ℤ, q = n ∧ number x isReal = .integer (clampInt64 n)) := by
  have hwhole := Binary64.isWhole_iff hq
  cases isReal with
  | true => exact .inl ⟨.inl rfl, rfl⟩
  | false =>
    by_cases hintegral : ∃ n : ℤ, q = n
    · right
      rw [number, hwhole.2 hintegral]
      obtain ⟨n, rfl⟩ := hintegral
      rw [Binary64.truncate?_of_integral hq]
      exact ⟨rfl, n, rfl, rfl⟩
    · left
      rw [number, Bool.eq_false_of_not_eq_true (mt hwhole.1 hintegral)]
      exact ⟨.inr hintegral, rfl⟩

/-- No number with a fraction is near the ends of the 64-bit integers. -/
theorem within_of_not_integral (hq : x.denoted? = some q) (h : ¬∃ n : ℤ, q = n) :
    -2 ^ 63 ≤ q ∧ q < 2 ^ 63 := by
  obtain ⟨hlower, hupper⟩ := abs_lt.1 (Binary64.abs_lt_of_not_integral hq h)
  constructor <;> linarith

theorem number_eq_real_iff (isReal : Bool) (hq : x.denoted? = some q) :
    number x isReal = .real x ↔ isReal = true ∨ ¬∃ n : ℤ, q = n := by
  rcases number_cases isReal hq with ⟨hreal, hheld⟩ | ⟨rfl, n, rfl, hheld⟩
  · exact iff_of_true hheld hreal
  · rw [hheld]
    simp

theorem denoted?_number_iff (isReal : Bool) (hq : x.denoted? = some q) :
    (number x isReal).denoted? = some q ↔ isReal = true ∨ -2 ^ 63 ≤ q ∧ q < 2 ^ 63 := by
  rcases number_cases isReal hq with ⟨hreal, hheld⟩ | ⟨rfl, n, rfl, hheld⟩
  · rw [hheld]
    exact iff_of_true hq (hreal.imp_right (within_of_not_integral hq))
  · have hrange : (-2 ^ 63 ≤ (n : ℚ) ∧ (n : ℚ) < 2 ^ 63) ↔ -2 ^ 63 ≤ n ∧ n < 2 ^ 63 := by
      norm_cast
    rw [hheld, or_iff_right Bool.false_ne_true, hrange, ← toInt_clampInt64_iff]
    show some ((clampInt64 n).toInt : ℚ) = some (n : ℚ) ↔ _
    rw [Option.some_inj, Int.cast_inj]

/-- A number beyond the ends is integral, so it is moved if it has no mark. -/
theorem number_of_outside (hq : x.denoted? = some q) (h : ¬(-2 ^ 63 ≤ q ∧ q < 2 ^ 63)) :
    ∃ n : ℤ, q = n ∧ number x false = .integer (clampInt64 n) := by
  rcases number_cases false hq with ⟨hreal, -⟩ | ⟨-, hmoved⟩
  · have hfraction : ¬∃ n : ℤ, q = n := hreal.resolve_left Bool.false_ne_true
    exact absurd (within_of_not_integral hq hfraction) h
  · exact hmoved

theorem number_of_lt (hq : x.denoted? = some q) (hlt : q < -2 ^ 63) :
    number x false = .integer Int64.minValue := by
  obtain ⟨n, rfl, hheld⟩ := number_of_outside hq fun h => not_lt.2 h.1 hlt
  rw [hheld, clampInt64_of_lt (by exact_mod_cast hlt)]

theorem number_of_le (hq : x.denoted? = some q) (hle : 2 ^ 63 ≤ q) :
    number x false = .integer Int64.maxValue := by
  obtain ⟨n, rfl, hheld⟩ := number_of_outside hq fun h => not_le.2 h.2 hle
  rw [hheld, clampInt64_of_le (by exact_mod_cast hle)]

/-- **A number keeps its value exactly if it is marked or within the 64-bit integers.** -/
theorem denoted_number {bits : BitVec 64} (hq : Interchange.denoted? bits = some q) (isReal : Bool) :
    ∃ v, (number (Binary64.ofBits bits.toNat) isReal).classify? = some v ∧
      v.denoted? = (number (Binary64.ofBits bits.toNat) isReal).denoted? ∧
      (v = .real (Binary64.ofBits bits.toNat) ↔ isReal = true ∨ ¬∃ n : ℤ, q = n) ∧
      (v.denoted? = some q ↔ isReal = true ∨ -2 ^ 63 ≤ q ∧ q < 2 ^ 63) ∧
      (isReal = false → q < -2 ^ 63 → v = .integer Int64.minValue) ∧
      (isReal = false → 2 ^ 63 ≤ q → v = .integer Int64.maxValue) := by
  rw [← Binary64.denoted?_ofBits] at hq
  generalize Binary64.ofBits bits.toNat = x at hq ⊢
  obtain ⟨v, hv⟩ := exists_classify?_number x isReal
  have hdenoted : v.denoted? = (number x isReal).denoted? := denoted?_of_classify? hv
  refine ⟨v, hv, hdenoted, ?_, ?_, ?_, ?_⟩
  · rw [← number_eq_real_iff isReal hq, ← classify?_eq_real_iff, hv, Option.some_inj]
  · rw [hdenoted, denoted?_number_iff isReal hq]
  · rintro rfl hlt
    rw [number_of_lt hq hlt] at hv
    exact (Option.some.inj hv).symm
  · rintro rfl hle
    rw [number_of_le hq hle] at hv
    exact (Option.some.inj hv).symm

theorem denoted?_lowerEnd : Interchange.denoted? 0xC3E0000000000000#64 = some (-2 ^ 63) := by
  have hexponent : Interchange.exponent 0xC3E0000000000000#64 = 1086 := by decide
  have hfraction : Interchange.fraction 0xC3E0000000000000#64 = 0 := by decide
  have hsign : (0xC3E0000000000000#64).msb = true := by decide
  rw [Interchange.denoted?, Interchange.magnitude, hexponent, hfraction, hsign]
  norm_num

theorem denoted?_upperEnd : Interchange.denoted? 0x43E0000000000000#64 = some (2 ^ 63) := by
  have hexponent : Interchange.exponent 0x43E0000000000000#64 = 1086 := by decide
  have hfraction : Interchange.fraction 0x43E0000000000000#64 = 0 := by decide
  have hsign : (0x43E0000000000000#64).msb = false := by decide
  rw [Interchange.denoted?, Interchange.magnitude, hexponent, hfraction, hsign]
  norm_num

/-- The lower end keeps its value without a mark, the upper end does not. -/
theorem denoted_number_ends :
    (Interchange.denoted? 0xC3E0000000000000#64 = some (-2 ^ 63) ∧
      ∃ v, (number (Binary64.ofBits (0xC3E0000000000000#64).toNat) false).classify? = some v ∧
        v.denoted? = some (-2 ^ 63)) ∧
    (Interchange.denoted? 0x43E0000000000000#64 = some (2 ^ 63) ∧
      ∃ v, (number (Binary64.ofBits (0x43E0000000000000#64).toNat) true).classify? = some v ∧
        v.denoted? = some (2 ^ 63)) ∧
    ∃ v, (number (Binary64.ofBits (0x43E0000000000000#64).toNat) false).classify? = some v ∧
      v.denoted? ≠ some (2 ^ 63) ∧ v = .integer Int64.maxValue := by
  refine ⟨⟨denoted?_lowerEnd, ?_⟩, ⟨denoted?_upperEnd, ?_⟩, ?_⟩
  · obtain ⟨v, hv, -, -, hkept, -, -⟩ := denoted_number denoted?_lowerEnd false
    exact ⟨v, hv, hkept.2 (.inr (by norm_num))⟩
  · obtain ⟨v, hv, -, -, hkept, -, -⟩ := denoted_number denoted?_upperEnd true
    exact ⟨v, hv, hkept.2 (.inl rfl)⟩
  · obtain ⟨v, hv, -, -, hkept, -, hupper⟩ := denoted_number denoted?_upperEnd false
    refine ⟨v, hv, ?_, hupper rfl le_rfl⟩
    rw [Ne, hkept]
    norm_num

end RawValue

end MetadataSearch
