import MetadataSearch.Proofs.Calendar
import MetadataSearch.Proofs.Instant.Readers

/-!
# Written instants are read back

**Theorem (`readIso?_write`).** What a query makes of a written instant: the instant without its fraction
of a second if its year in UTC has four digits and no sign, and nothing for any other year.

An instant that was read is `Civil`: a leap second stands at the end of a minute, because offsets are
whole minutes. So second 60 is written for leap seconds only, and reading it gives one again.

For a year with four digits the fields are read one after the other as they were written
(`rfc3339_fields`), and the calendar gives the day back that the date was made from. For any other year
the text starts with a sign, which RFC 3339 has not, and ends in a letter, while the two other forms
of a date end in a digit.
-/

namespace MetadataSearch.Instant

open Reader

/-- The year in UTC. -/
def year (t : Instant) : Int := (Date.ofDayNumber t.day).year

/-- The instant without its fraction of a second. A leap second stays one. -/
def withoutFraction (t : Instant) : Instant :=
  ⟨t.seconds, t.nanos / nanosPerSecond * nanosPerSecond⟩

/-- What clocks show: a leap second only follows the last second of a minute, and lasts no longer than
any other. -/
structure Civil (t : Instant) : Prop where
  nanos_lt : t.nanos < 2 * nanosPerSecond
  minute : t.isLeap = true → t.seconds % 60 = 59

/-! ## Instants that are read -/

theorem civil_of_ofCivil? {date : Date} {hour minute second nanos : Nat} {t : Instant}
    (h : ofCivil? date hour minute second nanos = some t) (hnanos : nanos < nanosPerSecond) :
    t.Civil := by
  rw [ofCivil?] at h
  split at h
  case isFalse => cases h
  case isTrue =>
    dsimp only at h
    split at h
    case isTrue =>
      obtain rfl := Option.some.inj h
      refine ⟨by simp only; omega, fun _ => ?_⟩
      simp only [secondsPerDay]
      omega
    case isFalse =>
      obtain rfl := Option.some.inj h
      refine ⟨by simp only; omega, fun hleap => ?_⟩
      rw [isLeap, decide_eq_true_eq] at hleap
      exact absurd hnanos (Nat.not_lt.2 hleap)

theorem Civil.of_atOffset? {t u : Instant} {offset : Int} (h : t.Civil) (hoffset : offset % 60 = 0)
    (hu : t.atOffset? offset = some u) : u.Civil := by
  rw [atOffset?] at hu
  split at hu
  case isFalse => cases hu
  case isTrue =>
    rw [checked?] at hu
    split at hu
    case isFalse => cases hu
    case isTrue =>
      obtain rfl := Option.some.inj hu
      refine ⟨h.nanos_lt, fun hleap => ?_⟩
      have := h.minute hleap
      simp only
      omega

theorem fractionNanos_lt {digits : List Char} (h : ∀ c ∈ digits, c.isDigit = true) :
    fractionNanos digits < nanosPerSecond := by
  have hlength : (digits.take 9).length ≤ 9 := List.length_take_le 9 digits
  have hvalue : Numeral.value (digits.take 9) < 10 ^ (digits.take 9).length :=
    Numeral.value_lt fun c hc => h c (List.mem_of_mem_take hc)
  calc fractionNanos digits
      < 10 ^ (digits.take 9).length * 10 ^ (9 - (digits.take 9).length) :=
        Nat.mul_lt_mul_of_pos_right hvalue (Nat.pow_pos (by decide))
    _ = 10 ^ 9 := by rw [← Nat.pow_add, Nat.add_sub_cancel' hlength]

theorem gives_fraction : Gives fraction (· < nanosPerSecond) := by
  intro text nanos rest h
  unfold fraction at h
  split at h
  case h_1 =>
    dsimp only at h
    split at h
    case isTrue => cases h
    case isFalse =>
      obtain ⟨rfl, -⟩ := Prod.mk.inj (Option.some.inj h)
      exact fractionNanos_lt fun c hc => List.mem_takeWhile_imp hc
  case h_2 =>
    obtain ⟨rfl, -⟩ := Prod.mk.inj (Option.some.inj h)
    decide

/-- Offsets are whole minutes. -/
theorem gives_signedOffset (separator : Reader Unit) : Gives (signedOffset separator) (· % 60 = 0) := by
  refine gives_next fun sign => gives_next fun hours => gives_next fun _ => gives_next fun minutes => ?_
  intro text offset rest h
  split at h
  case isFalse => cases h
  case isTrue =>
    obtain ⟨rfl, -⟩ := pure_eq_some.1 h
    split <;> omega

theorem gives_rfc3339Offset : Gives rfc3339Offset (· % 60 = 0) := by
  intro text offset rest h
  unfold rfc3339Offset at h
  split at h
  case h_3 => exact gives_signedOffset _ _ _ _ h
  all_goals
    obtain ⟨rfl, -⟩ := Prod.mk.inj (Option.some.inj h)
    rfl

theorem civil_of_readRfc3339? {text : List Char} {t : Instant} (h : readRfc3339? text = some t) :
    t.Civil := by
  have hgives : Gives rfc3339 Civil := by
    unfold rfc3339
    iterate 11 refine gives_next fun _ => ?_
    refine gives_bind gives_fraction fun nanos hnanos => ?_
    refine gives_bind gives_rfc3339Offset fun offset hoffset => ?_
    refine gives_bind (gives_given fun t ht => civil_of_ofCivil? ht hnanos) fun t ht => ?_
    exact gives_given fun u hu => ht.of_atOffset? hoffset hu
  exact hgives _ _ _ (whole?_eq_some.1 h)

theorem civil_of_readDate? {text : List Char} {t : Instant} (h : readDate? text = some t) :
    t.Civil := by
  obtain ⟨date, -, h⟩ := Option.bind_eq_some_iff.1 h
  exact civil_of_ofCivil? h (by decide)

/-! ## The written form -/

/-- The characters of written instants. -/
def IsWritten (c : Char) : Prop := c.isDigit = true ∨ c ∈ ['+', '-', ':', 'T', 'Z']

theorem isWritten_of_mem_write {t : Instant} {c : Char} (h : c ∈ t.write) : IsWritten c := by
  have hpadded : ∀ {width n}, c ∈ Numeral.padded width n → IsWritten c := fun hc =>
    .inl (Numeral.isDigit_of_mem_padded hc)
  have hyear : c ∈ writeYear (Date.ofDayNumber t.day).year → IsWritten c := by
    intro hc
    rw [writeYear] at hc
    split at hc
    case isTrue => exact hpadded hc
    case isFalse =>
      rcases List.mem_cons.1 hc with rfl | hc
      · split <;> exact .inr (by decide)
      · exact hpadded hc
  simp only [write, List.mem_append, List.mem_cons, List.not_mem_nil, or_false, or_assoc] at h
  rcases h with h | rfl | h | rfl | h | rfl | h | rfl | h | rfl | h | rfl
  all_goals first | exact hyear h | exact hpadded h | exact .inr (by decide)

/-! ## Reading back -/

/-- The years that are written without a sign lie in the range of instants. -/
theorem dayNumber_inRange {d : Date} (hvalid : d.isValid = true)
    (hyear : 0 ≤ d.year ∧ d.year ≤ 9999) :
    leastDay ≤ d.dayNumber ∧ d.dayNumber ≤ greatestDay := by
  have hleast : leastDay = -96465292 := by decide
  have hgreatest : greatestDay = 95026236 := by decide
  have hlength := Date.daysInMonth_le d.year d.month
  simp only [Date.isValid, Bool.and_eq_true, decide_eq_true_eq] at hvalid
  rw [hleast, hgreatest]
  simp only [Date.dayNumber, Date.daysBeforeMonth, Date.daysPerEra, Date.epochDay]
  by_cases hmonth : d.month ≤ 2
  · simp only [if_pos hmonth]
    omega
  · simp only [if_neg hmonth]
    omega

theorem ofCivil?_of_fits {date : Date} (hvalid : date.isValid = true)
    (hyear : leastYear ≤ date.year ∧ date.year ≤ greatestYear) {hour minute second : Nat}
    (hhour : hour < 24) (hminute : minute < 60) (hsecond : second ≤ 60) :
    ofCivil? date hour minute second 0 = some
      (if second = 60 then
        ⟨date.dayNumber * secondsPerDay + hour * 3600 + minute * 60 + 59, nanosPerSecond⟩
      else ⟨date.dayNumber * secondsPerDay + hour * 3600 + minute * 60 + second, 0⟩) := by
  have hfits : (date.isValid && leastYear ≤ date.year && date.year ≤ greatestYear && hour < 24 &&
      minute < 60 && second ≤ 60) = true := by
    simp only [hvalid, hyear.1, hyear.2, hhour, hminute, hsecond, decide_true, Bool.and_true]
  rw [ofCivil?, if_pos hfits]
  by_cases hlast : second = 60
  · rw [if_pos hlast]
    exact if_pos (beq_iff_eq.2 hlast)
  · rw [if_neg hlast]
    exact if_neg fun h => hlast (beq_iff_eq.1 h)

theorem withoutFraction_of_isLeap {t : Instant} (ht : t.Civil) (hleap : t.isLeap = true) :
    t.withoutFraction = ⟨t.seconds, nanosPerSecond⟩ := by
  have hleast : nanosPerSecond ≤ t.nanos := of_decide_eq_true hleap
  have hone : t.nanos / nanosPerSecond = 1 :=
    Nat.div_eq_of_lt_le (by rwa [Nat.one_mul]) ht.nanos_lt
  rw [withoutFraction, hone, Nat.one_mul]

theorem withoutFraction_of_not_isLeap {t : Instant} (hleap : ¬ t.isLeap = true) :
    t.withoutFraction = ⟨t.seconds, 0⟩ := by
  have hbefore : t.nanos < nanosPerSecond := Nat.lt_of_not_le fun h => hleap (decide_eq_true h)
  rw [withoutFraction, Nat.div_eq_of_lt hbefore, Nat.zero_mul]

/-- The date and the time of day that are written make the instant again. -/
theorem ofCivil?_write {t : Instant} (ht : t.Civil) (hyear : 0 ≤ t.year ∧ t.year ≤ 9999)
    {second : Nat} (hsecond : second = (t.seconds % secondsPerDay).toNat) :
    ofCivil? (Date.ofDayNumber t.day) (second / 3600) (second / 60 % 60)
      (second % 60 + if t.isLeap then 1 else 0) 0 = some t.withoutFraction := by
  have hsum : t.seconds = t.day * secondsPerDay + second ∧ second < 86400 := by
    rw [day, hsecond]
    unfold secondsPerDay
    omega
  have hrange : leastYear ≤ t.year ∧ t.year ≤ greatestYear :=
    ⟨Int.le_trans (show leastYear ≤ 0 by decide) hyear.1,
      Int.le_trans hyear.2 (show 9999 ≤ greatestYear by decide)⟩
  rw [ofCivil?_of_fits (Date.isValid_ofDayNumber t.day) hrange (by omega) (by omega)
    (by split <;> omega), Date.dayNumber_ofDayNumber]
  by_cases hleap : t.isLeap = true
  · have hminute := ht.minute hleap
    have hlast : second % 60 + 1 = 60 := by
      rw [hsum.1, secondsPerDay] at hminute
      omega
    rw [withoutFraction_of_isLeap ht hleap, if_pos hleap, if_pos hlast]
    congr 2
    omega
  · have hlast : ¬ second % 60 + 0 = 60 := by omega
    rw [withoutFraction_of_not_isLeap hleap, if_neg hleap, if_neg hlast]
    congr 2
    omega

theorem inRange_of_year {t : Instant} (hyear : 0 ≤ t.year ∧ t.year ≤ 9999) : t.inRange = true := by
  have h := dayNumber_inRange (Date.isValid_ofDayNumber t.day) hyear
  rw [Date.dayNumber_ofDayNumber] at h
  rw [inRange, Bool.and_eq_true, decide_eq_true_eq, decide_eq_true_eq]
  exact h

/-- The fields of a date and a time of day, with two digits each and four for the year. -/
def fields (year month day hour minute second : Nat) : List Char :=
  Numeral.padded 4 year ++ '-' :: (Numeral.padded 2 month ++ '-' :: (Numeral.padded 2 day ++
    'T' :: (Numeral.padded 2 hour ++ ':' :: (Numeral.padded 2 minute ++
    ':' :: (Numeral.padded 2 second ++ ['Z'])))))

/-- Every field is read as it was written. -/
theorem rfc3339_fields {year month day hour minute second : Nat} (hyear : year < 10 ^ 4)
    (hmonth : month < 10 ^ 2) (hday : day < 10 ^ 2) (hhour : hour < 10 ^ 2) (hminute : minute < 10 ^ 2)
    (hsecond : second < 10 ^ 2) :
    rfc3339 (fields year month day hour minute second) =
      (do
        let t ← given (ofCivil? ⟨year, month, day⟩ hour minute second 0)
        given (t.atOffset? 0) : Reader Instant) [] := by
  rw [rfc3339, fields]
  rw [bind_of_eq_some (number_padded (by decide) hyear _), bind_of_eq_some (oneOf_cons rfl _)]
  rw [bind_of_eq_some (number_padded (by decide) hmonth _), bind_of_eq_some (oneOf_cons rfl _)]
  rw [bind_of_eq_some (number_padded (by decide) hday _), bind_of_eq_some (oneOf_cons rfl _)]
  rw [bind_of_eq_some (number_padded (by decide) hhour _), bind_of_eq_some (oneOf_cons rfl _)]
  rw [bind_of_eq_some (number_padded (by decide) hminute _), bind_of_eq_some (oneOf_cons rfl _)]
  rw [bind_of_eq_some (number_padded (by decide) hsecond _)]
  rfl

theorem write_eq_fields {t : Instant} (hyear : 0 ≤ t.year ∧ t.year ≤ 9999) {second : Nat}
    (hsecond : second = (t.seconds % secondsPerDay).toNat) :
    t.write = fields t.year.toNat (Date.ofDayNumber t.day).month (Date.ofDayNumber t.day).day
      (second / 3600) (second / 60 % 60) (second % 60 + if t.isLeap then 1 else 0) := by
  rw [year] at *
  have hunsigned : writeYear (Date.ofDayNumber t.day).year =
      Numeral.padded 4 (Date.ofDayNumber t.day).year.toNat := by
    rw [writeYear, if_pos]
    simpa using hyear
  simp only [write, fields, hunsigned, hsecond, List.append_assoc, List.cons_append]

/-- **A written instant is read back without its fraction.** -/
theorem readRfc3339?_write {t : Instant} (ht : t.Civil) (hyear : 0 ≤ t.year ∧ t.year ≤ 9999) :
    readRfc3339? t.write = some t.withoutFraction := by
  obtain ⟨second, hsecond⟩ : ∃ second, second = (t.seconds % secondsPerDay).toNat := ⟨_, rfl⟩
  have hcivil := ofCivil?_write ht hyear hsecond
  have hrange : t.withoutFraction.inRange = true := inRange_of_year hyear
  have hlt : second < 86400 := by
    unfold secondsPerDay at hsecond
    omega
  have hdate : (⟨(t.year.toNat : Int), (Date.ofDayNumber t.day).month, (Date.ofDayNumber t.day).day⟩ :
      Date) = Date.ofDayNumber t.day := by
    rw [Int.toNat_of_nonneg hyear.1]
    rfl
  have hvalid := Date.isValid_ofDayNumber t.day
  simp only [Date.isValid, Bool.and_eq_true, decide_eq_true_eq] at hvalid
  have hlength := Date.daysInMonth_le (Date.ofDayNumber t.day).year (Date.ofDayNumber t.day).month
  rw [readRfc3339?, whole?_eq_some, write_eq_fields hyear hsecond]
  rw [rfc3339_fields (by omega) (by omega) (by omega) (by omega) (by omega) (by split <;> omega), hdate]
  refine bind_eq_some.2 ⟨_, [], given_eq_some.2 ⟨hcivil, rfl⟩, given_eq_some.2 ⟨?_, rfl⟩⟩
  rw [atOffset?, if_pos (by decide), checked?, Int.sub_zero]
  exact if_pos hrange

/-! ## Texts that are not read -/

theorem endsAtDigit_looseTwo : EndsAtDigit looseTwo :=
  takesFront_blanks.bind_endsAtDigit fun _ => endsAtDigit_number 2 Nat.zero_lt_one

theorem endsAtDigit_looseYear : EndsAtDigit looseYear := by
  refine takesFront_blanks.bind_endsAtDigit fun _ => ?_
  -- A sign only stands before the number.
  have hsigned : ∀ (value : Nat → Int) (sign : List Char) {most text n rest},
      (number 1 most text).map (fun p => (value p.1, p.2)) = some (n, rest) →
        ∃ front d, d.isDigit = true ∧ sign ++ text = front ++ d :: rest := by
    intro value sign most text n rest h
    obtain ⟨⟨m, after⟩, hnumber, heq⟩ := Option.map_eq_some_iff.1 h
    obtain ⟨-, rfl⟩ := Prod.mk.inj heq
    obtain ⟨front, d, hd, rfl⟩ := endsAtDigit_number most Nat.zero_lt_one _ _ _ hnumber
    exact ⟨sign ++ front, d, hd, (List.append_assoc sign front _).symm⟩
  intro text n rest h
  dsimp only at h
  split at h
  · exact hsigned (fun m => -(m : Int)) ['-'] h
  · exact hsigned (fun m => (m : Int)) ['+'] h
  · exact hsigned (fun m => (m : Int)) [] h

theorem endsAtDigit_looseDate : EndsAtDigit looseDate := by
  unfold looseDate
  refine endsAtDigit_looseYear.takesFront.bind_endsAtDigit fun year => ?_
  refine (takesFront_oneOf _).bind_endsAtDigit fun _ => ?_
  refine endsAtDigit_looseTwo.takesFront.bind_endsAtDigit fun month => ?_
  refine (takesFront_oneOf _).bind_endsAtDigit fun _ => ?_
  exact endsAtDigit_looseTwo.bind_pure

theorem endsAtDigit_looseTimeOn (date : Date) : EndsAtDigit (looseTimeOn date) := by
  unfold looseTimeOn
  refine endsAtDigit_looseTwo.takesFront.bind_endsAtDigit fun hour => ?_
  refine (takesFront_oneOf _).bind_endsAtDigit fun _ => ?_
  refine endsAtDigit_looseTwo.takesFront.bind_endsAtDigit fun minute => ?_
  refine (takesFront_oneOf _).bind_endsAtDigit fun _ => ?_
  exact endsAtDigit_looseTwo.bind_given

/-- A reader that ends at a digit does not take a whole text that ends in a letter. -/
theorem whole?_of_endsAtDigit {α : Type} {reader : Reader α} (h : EndsAtDigit reader)
    (front : List Char) : whole? reader (front ++ ['Z']) = none := by
  rw [Option.eq_none_iff_forall_ne_some]
  intro a hread
  obtain ⟨taken, d, hd, heq⟩ := h _ _ _ (whole?_eq_some.1 hread)
  obtain ⟨-, hlast⟩ := List.append_inj' heq rfl
  obtain rfl := (List.cons.inj hlast).1
  exact absurd hd (by decide)

theorem readDate?_append_Z (front : List Char) : readDate? (front ++ ['Z']) = none := by
  rw [readDate?, whole?_of_endsAtDigit endsAtDigit_looseDate, Option.bind_none]

theorem readDateTime?_append_Z (front : List Char) : readDateTime? (front ++ ['Z']) = none := by
  refine whole?_of_endsAtDigit (endsAtDigit_looseDate.takesFront.bind_endsAtDigit fun date => ?_) front
  exact (takesFront_oneOf _).bind_endsAtDigit fun _ => endsAtDigit_looseTimeOn date

theorem readRfc3339?_cons_of_not_digit {c : Char} (hc : c.isDigit = false) (text : List Char) :
    readRfc3339? (c :: text) = none := by
  have hyear : number 4 4 (c :: text) = none := by
    rw [number]
    simp [hc]
  rw [readRfc3339?, whole?, rfc3339, bind_of_eq_none hyear]

theorem exists_write_eq (t : Instant) : ∃ front, t.write = front ++ ['Z'] := by
  rw [write]
  exact ⟨_, rfl⟩

/-- A year that is not written with four digits alone has a sign. -/
theorem exists_write_eq_cons {t : Instant} (h : ¬(0 ≤ t.year ∧ t.year ≤ 9999)) :
    ∃ sign rest, sign.isDigit = false ∧ t.write = sign :: rest := by
  have hsigned : writeYear t.year = (if t.year < 0 then '-' else '+') ::
      Numeral.padded 4 t.year.natAbs := by
    rw [writeYear, if_neg]
    simpa using h
  rw [year] at hsigned
  rw [write, hsigned]
  simp only [List.cons_append]
  exact ⟨_, _, by split <;> rfl, rfl⟩

/-- **A date in a query is read back if its year has four digits and no sign, and else not at all.** -/
theorem readIso?_write {t : Instant} (ht : t.Civil) :
    readIso? t.write = if 0 ≤ t.year ∧ t.year ≤ 9999 then some t.withoutFraction else none := by
  by_cases hyear : 0 ≤ t.year ∧ t.year ≤ 9999
  · rw [if_pos hyear, readIso?, readRfc3339?_write ht hyear]
    rfl
  · obtain ⟨front, hfront⟩ := exists_write_eq t
    obtain ⟨sign, rest, hsign, hrest⟩ := exists_write_eq_cons hyear
    have hrfc3339 : readRfc3339? t.write = none := by
      rw [hrest, readRfc3339?_cons_of_not_digit hsign]
    rw [if_neg hyear, readIso?, hrfc3339, hfront, readDate?_append_Z, readDateTime?_append_Z]
    rfl

end MetadataSearch.Instant
