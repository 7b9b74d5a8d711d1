import MetadataSearch.Proofs.Query.ModifiedSince
import MetadataSearch.Toolbox

/-!
# Every reader takes a written instant

**Theorem (`Instant.readers_format`).** The written form of an instant is read back by a query, as a text
value and as the argument of a tool, for every year that is written with four digits alone. All three give
the second in which the instant lies, and none the fraction.

All of them try RFC 3339 first, which takes the written form (`Instant.readRfc3339?_write`). The tool trims
its argument before that, but there are no blanks in a written instant.

The second is the one that begins at the instant or before it, on either side of 1970: nanoseconds count
forward from their second, so leaving them out goes down on the scale of `Instant.nanosSinceEpoch`, also
where that is negative.
-/

namespace MetadataSearch.Instant

variable {t : Instant}

/-! ## Whole seconds -/

/-- The nanoseconds from 1970-01-01T00:00:00Z on, and before it those that are left until then, as a
negative number. -/
def nanosSinceEpoch (t : Instant) : Int := t.seconds * nanosPerSecond + t.nanos

theorem nanosSinceEpoch_wholeSecond (h : t.isLeap = false) :
    t.wholeSecond.nanosSinceEpoch = t.nanosSinceEpoch / nanosPerSecond * nanosPerSecond := by
  rw [isLeap, decide_eq_false_iff_not, Nat.not_le] at h
  rw [nanosSinceEpoch, nanosSinceEpoch, wholeSecond]
  unfold nanosPerSecond at *
  dsimp only
  omega

theorem civil_of_not_isLeap (h : t.isLeap = false) : t.Civil := by
  refine ⟨?_, fun hleap => ?_⟩
  · rw [isLeap, decide_eq_false_iff_not] at h
    omega
  · rw [h] at hleap
    cases hleap

theorem withoutFraction_eq_wholeSecond (h : t.isLeap = false) : t.withoutFraction = t.wholeSecond :=
  withoutFraction_of_not_isLeap (by rw [h]; decide)

/-! ## Readers -/

theorem trim_write (t : Instant) : Text.trim t.write = t.write :=
  Text.trim_eq_self fun c hc => (Query.plainArgument_write t c hc).2.1

/-- **Every reader gives a written instant back, cut to its second.** -/
theorem readers_format (hleap : t.isLeap = false) (hyear : 0 ≤ t.year ∧ t.year ≤ 9999) :
    t.wholeSecond.nanosSinceEpoch = t.nanosSinceEpoch / nanosPerSecond * nanosPerSecond ∧
      readIso? t.format.toList = some t.wholeSecond ∧
      (Value.text t.format).asInstant? = some t.wholeSecond ∧
      Toolbox.readSince? t.format = some t.wholeSecond := by
  have htext : t.format.toList = t.write := String.toList_ofList
  have hread : readRfc3339? t.write = some t.wholeSecond := by
    rw [readRfc3339?_write (civil_of_not_isLeap hleap) hyear, withoutFraction_eq_wholeSecond hleap]
  refine ⟨nanosSinceEpoch_wholeSecond hleap, ?_, ?_, ?_⟩
  · rw [htext, readIso?, hread]
    rfl
  · rw [Value.asInstant?, htext, hread]
  · rw [Toolbox.readSince?, htext, trim_write, hread]
    rfl

/-- The last nanosecond before 1970, and the first one of the first year and of a leap day. -/
theorem readers_format_edges :
    (format ⟨-1, 999999999⟩ = "1969-12-31T23:59:59Z" ∧
      readIso? (format ⟨-1, 999999999⟩).toList = some ⟨-1, 0⟩ ∧
      nanosSinceEpoch ⟨-1, 0⟩ = nanosSinceEpoch ⟨-1, 999999999⟩ / nanosPerSecond * nanosPerSecond) ∧
    (format ⟨-62167219200, 1⟩ = "0000-01-01T00:00:00Z" ∧
      (Value.text (format ⟨-62167219200, 1⟩)).asInstant? = some ⟨-62167219200, 0⟩) ∧
    (format ⟨951782400, 1⟩ = "2000-02-29T00:00:00Z" ∧
      Toolbox.readSince? (format ⟨951782400, 1⟩) = some ⟨951782400, 0⟩) := by
  obtain ⟨hcut, hquery, -, -⟩ := readers_format (t := ⟨-1, 999999999⟩) rfl (by decide +kernel)
  obtain ⟨-, -, hvalue, -⟩ := readers_format (t := ⟨-62167219200, 1⟩) rfl (by decide +kernel)
  obtain ⟨-, -, -, htool⟩ := readers_format (t := ⟨951782400, 1⟩) rfl (by decide +kernel)
  exact ⟨⟨by decide +kernel, hquery, hcut⟩, ⟨by decide +kernel, hvalue⟩, by decide +kernel, htool⟩

end MetadataSearch.Instant
