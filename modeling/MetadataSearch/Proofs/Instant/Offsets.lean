import MetadataSearch.Instant

/-!
# Instants after a number of seconds

**Theorem (`addSeconds?_eq`).** Outside a leap second, an instant of the range is moved by any number of
seconds to the sum, its nanoseconds kept, if the sum lies in the range. Otherwise the move is refused.

Two bounds come before that of the range: days have to be seconds in 64 bits, and seconds a duration.
Neither refuses anything else. A product beyond 64 bits would be no duration either
(`Duration.ofDays?_eq`), and the range is shorter than the longest duration, so what is no duration leads
out of the range from every instant in it (`fits_of_inRange_later`).
-/

namespace MetadataSearch

/-- Days are refused only where their seconds are. -/
theorem Duration.ofDays?_eq (n : Int64) :
    ofDays? n = ofSeconds? (n.toInt * Instant.secondsPerDay) := by
  have hmin : Int64.minValue.toInt = -9223372036854775808 := rfl
  have hmax : Int64.maxValue.toInt = 9223372036854775807 := rfl
  rw [ofDays?, int64?]
  generalize n.toInt * Instant.secondsPerDay = seconds
  by_cases hproduct : Int64.minValue.toInt ≤ seconds ∧ seconds ≤ Int64.maxValue.toInt
  · rw [if_pos hproduct, Option.bind_some, Int64.toInt_ofInt_of_le (by omega) (by omega)]
  · rw [if_neg hproduct, Option.bind_none, ofSeconds?, dif_neg (by omega)]

namespace Instant

variable {t : Instant}

/-- The instant `n` seconds later. -/
def later (t : Instant) (n : Int) : Instant := ⟨t.seconds + n, t.nanos⟩

theorem inRange_iff : t.inRange = true ↔
    leastDay * secondsPerDay ≤ t.seconds ∧ t.seconds < (greatestDay + 1) * secondsPerDay := by
  rw [inRange, Bool.and_eq_true, decide_eq_true_eq, decide_eq_true_eq, day]
  unfold secondsPerDay
  omega

/-! ## Midnight -/

theorem day_midnight (t : Instant) : t.midnight.day = t.day :=
  Int.mul_ediv_cancel t.day (by decide)

theorem inRange_midnight (t : Instant) : t.midnight.inRange = t.inRange := by
  rw [inRange, inRange, day_midnight]

theorem isLeap_midnight (t : Instant) : t.midnight.isLeap = false := rfl

/-! ## Moving -/

/-- From one instant of the range to another it is a duration. -/
theorem fits_of_inRange_later {n : Int} (ht : t.inRange = true) (hlater : (t.later n).inRange = true) :
    -Int64.maxValue.toInt ≤ n * 1000 ∧ n * 1000 ≤ Int64.maxValue.toInt := by
  have hmax : Int64.maxValue.toInt = 9223372036854775807 := rfl
  have hleast : leastDay * secondsPerDay = -8334601228800 := rfl
  have hgreatest : (greatestDay + 1) * secondsPerDay = 8210266876800 := rfl
  rw [inRange_iff] at ht hlater
  rw [later] at hlater
  dsimp only at hlater
  omega

/-- **An instant is moved to the sum, or not at all.** -/
theorem addSeconds?_eq (ht : t.inRange = true) (hleap : t.isLeap = false) (n : Int) :
    t.addSeconds? n = (t.later n).checked? := by
  by_cases hfits : -Int64.maxValue.toInt ≤ n * 1000 ∧ n * 1000 ≤ Int64.maxValue.toInt
  · rw [addSeconds?, Duration.ofSeconds?, dif_pos hfits, Option.bind_some, add?, hleap]
    rfl
  · have hout : ¬ (t.later n).inRange = true := fun hlater => hfits (fits_of_inRange_later ht hlater)
    rw [addSeconds?, Duration.ofSeconds?, dif_neg hfits, Option.bind_none, checked?, if_neg hout]

/-- The edges of the range: its first instant and its last second, reached from both sides of 1970. -/
example : (⟨-1, 5⟩ : Instant).addSeconds? (-8334601228799) = some ⟨-8334601228800, 5⟩ ∧
    (⟨-1, 5⟩ : Instant).addSeconds? (-8334601228800) = none ∧
    (⟨0, 0⟩ : Instant).addSeconds? 8210266876799 = some ⟨8210266876799, 0⟩ ∧
    (⟨0, 0⟩ : Instant).addSeconds? 8210266876800 = none := ⟨rfl, rfl, rfl, rfl⟩

end Instant

end MetadataSearch
