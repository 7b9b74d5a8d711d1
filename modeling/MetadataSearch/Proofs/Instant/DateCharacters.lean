import MetadataSearch.Proofs.Instant.Readers

/-!
# The characters of dates

**Theorem (`isDateChar_of_readIso?`).** Whatever its form, a date that a query accepts is made of digits,
blanks, and a few signs and letters. So neither a quote nor a closing parenthesis stands in it.

All three forms are sequences of readers. A sequence takes only what its parts take
(`TakesOnly.bind`), and a part takes a sign that it allows, blanks, or digits.
-/

namespace MetadataSearch.Instant

namespace Reader

variable {α β : Type} {P : Char → Prop} {reader : Reader α} {next : α → Reader β}

/-- What is taken from the front of the text has a property, character by character. -/
def TakesOnly (P : Char → Prop) (reader : Reader α) : Prop :=
  ∀ text a rest, reader text = some (a, rest) → ∃ taken, text = taken ++ rest ∧ ∀ c ∈ taken, P c

theorem TakesOnly.bind (h : TakesOnly P reader) (hnext : ∀ a, TakesOnly P (next a)) :
    TakesOnly P (reader >>= next) := by
  intro text b rest hread
  obtain ⟨a, mid, hfirst, hsecond⟩ := bind_eq_some.1 hread
  obtain ⟨taken, rfl, htaken⟩ := h text a mid hfirst
  obtain ⟨more, rfl, hmore⟩ := hnext a mid b rest hsecond
  refine ⟨taken ++ more, (List.append_assoc taken more rest).symm, fun c hc => ?_⟩
  exact (List.mem_append.1 hc).elim (htaken c) (hmore c)

theorem takesOnly_pure (a : α) : TakesOnly P (pure a : Reader α) := by
  intro text b rest hread
  obtain ⟨-, rfl⟩ := pure_eq_some.1 hread
  exact ⟨[], rfl, fun c hc => absurd hc List.not_mem_nil⟩

theorem takesOnly_given (value : Option α) : TakesOnly P (given value) := by
  intro text a rest hread
  obtain ⟨-, rfl⟩ := given_eq_some.1 hread
  exact ⟨[], rfl, fun c hc => absurd hc List.not_mem_nil⟩

/-- A value that is looked at in another way is taken from the same text. -/
theorem TakesOnly.map (h : TakesOnly P reader) (f : α → β) :
    TakesOnly P fun text => (reader text).map fun p => (f p.1, p.2) := by
  intro text b rest hread
  obtain ⟨⟨a, after⟩, hfirst, heq⟩ := Option.map_eq_some_iff.1 hread
  obtain ⟨-, rfl⟩ := Prod.mk.inj heq
  exact h text a after hfirst

theorem takesOnly_oneOf {allowed : List Char} (h : ∀ c ∈ allowed, P c) :
    TakesOnly P (oneOf allowed) := by
  intro text a rest hread
  cases text with
  | nil => cases hread
  | cons c text =>
    rw [oneOf] at hread
    split at hread
    case isFalse => cases hread
    case isTrue hallowed =>
      obtain ⟨rfl, rfl⟩ := Prod.mk.inj (Option.some.inj hread)
      refine ⟨[c], rfl, fun d hd => ?_⟩
      rw [List.mem_singleton.1 hd]
      exact h c (List.contains_iff_mem.1 hallowed)

theorem takesOnly_dropWhile {p : Char → Bool} (h : ∀ c, p c = true → P c) :
    TakesOnly P fun text => some ((), text.dropWhile p) := by
  intro text a rest hread
  obtain ⟨-, rfl⟩ := Prod.mk.inj (Option.some.inj hread)
  exact ⟨text.takeWhile p, List.takeWhile_append_dropWhile.symm,
    fun c hc => h c (List.mem_takeWhile_imp hc)⟩

theorem takesOnly_number (h : ∀ c : Char, c.isDigit = true → P c) (least most : Nat) :
    TakesOnly P (number least most) := by
  intro text n rest hread
  obtain ⟨digits, rfl, -, hdigits, -⟩ := number_eq_some hread
  exact ⟨digits, rfl, fun c hc => h c (hdigits c hc)⟩

end Reader

open Reader

/-! ## The parts of a date -/

/-- What stands in dates besides digits and blanks. -/
def dateSigns : List Char := ['+', '-', '\u2212', '.', ':', 'T', 't', 'Z', 'z']

def IsDateChar (c : Char) : Prop := c.isDigit = true ∨ Text.isBlank c = true ∨ c ∈ dateSigns

theorem takesOnly_blanks : TakesOnly IsDateChar blanks :=
  takesOnly_dropWhile fun _ hc => .inr (.inl hc)

theorem takesOnly_digits (least most : Nat) : TakesOnly IsDateChar (number least most) :=
  takesOnly_number (fun _ hc => .inl hc) least most

theorem takesOnly_sign {allowed : List Char} (h : allowed.all dateSigns.contains = true) :
    TakesOnly IsDateChar (oneOf allowed) :=
  takesOnly_oneOf fun c hc => .inr (.inr (List.contains_iff_mem.1 (List.all_eq_true.1 h c hc)))

theorem takesOnly_fraction : TakesOnly IsDateChar fraction := by
  intro text nanos rest hread
  unfold fraction at hread
  split at hread
  case h_1 after =>
    dsimp only at hread
    split at hread
    case isTrue => cases hread
    case isFalse =>
      obtain ⟨-, rfl⟩ := Prod.mk.inj (Option.some.inj hread)
      refine ⟨'.' :: after.takeWhile Char.isDigit, ?_, fun c hc => ?_⟩
      · rw [List.cons_append, List.takeWhile_append_dropWhile]
      · rcases List.mem_cons.1 hc with rfl | hc
        · exact .inr (.inr (by decide))
        · exact .inl (List.mem_takeWhile_imp hc)
  case h_2 =>
    obtain ⟨-, rfl⟩ := Prod.mk.inj (Option.some.inj hread)
    exact ⟨[], rfl, fun c hc => absurd hc List.not_mem_nil⟩

theorem takesOnly_signedOffset {separator : Reader Unit} (h : TakesOnly IsDateChar separator) :
    TakesOnly IsDateChar (signedOffset separator) := by
  refine (takesOnly_sign rfl).bind fun sign => (takesOnly_digits 2 2).bind fun hours => ?_
  refine h.bind fun _ => (takesOnly_digits 2 2).bind fun minutes => ?_
  split
  · exact takesOnly_pure _
  · exact takesOnly_given _

theorem takesOnly_rfc3339Offset : TakesOnly IsDateChar rfc3339Offset := by
  have hcolon : TakesOnly IsDateChar (do let _ ← oneOf [':']; return () : Reader Unit) :=
    (takesOnly_sign rfl).bind fun _ => takesOnly_pure ()
  intro text offset rest hread
  unfold rfc3339Offset at hread
  split at hread
  case h_3 => exact takesOnly_signedOffset hcolon _ _ _ hread
  case h_1 | h_2 =>
    obtain ⟨-, rfl⟩ := Prod.mk.inj (Option.some.inj hread)
    refine ⟨[_], rfl, fun c hc => ?_⟩
    rw [List.mem_singleton.1 hc]
    exact .inr (.inr (by decide))

theorem takesOnly_looseTwo : TakesOnly IsDateChar looseTwo :=
  takesOnly_blanks.bind fun _ => takesOnly_digits 1 2

theorem takesOnly_looseYear : TakesOnly IsDateChar looseYear := by
  refine takesOnly_blanks.bind fun _ => ?_
  -- A sign stands before the number, or nothing does.
  have hsigned : ∀ {most} (value : Nat → Int) (sign : List Char) {text n rest},
      (∀ c ∈ sign, IsDateChar c) →
      (number 1 most text).map (fun p => (value p.1, p.2)) = some (n, rest) →
        ∃ taken, sign ++ text = taken ++ rest ∧ ∀ c ∈ taken, IsDateChar c := by
    intro most value sign text n rest hsign hread
    obtain ⟨taken, rfl, htaken⟩ := (takesOnly_digits 1 most).map value _ _ _ hread
    refine ⟨sign ++ taken, (List.append_assoc sign taken rest).symm, fun c hc => ?_⟩
    exact (List.mem_append.1 hc).elim (hsign c) (htaken c)
  intro text n rest hread
  dsimp only at hread
  split at hread
  · exact hsigned (fun m => -(m : Int)) ['-'] (by simp [IsDateChar, dateSigns]) hread
  · exact hsigned (fun m => (m : Int)) ['+'] (by simp [IsDateChar, dateSigns]) hread
  · exact hsigned (fun m => (m : Int)) [] (by simp) hread

theorem takesOnly_looseDate : TakesOnly IsDateChar looseDate := by
  refine takesOnly_looseYear.bind fun year => (takesOnly_sign rfl).bind fun _ => ?_
  refine takesOnly_looseTwo.bind fun month => (takesOnly_sign rfl).bind fun _ => ?_
  exact takesOnly_looseTwo.bind fun day => takesOnly_pure _

theorem takesOnly_looseTimeOn (date : Date) : TakesOnly IsDateChar (looseTimeOn date) := by
  refine takesOnly_looseTwo.bind fun hour => (takesOnly_sign rfl).bind fun _ => ?_
  refine takesOnly_looseTwo.bind fun minute => (takesOnly_sign rfl).bind fun _ => ?_
  exact takesOnly_looseTwo.bind fun second => takesOnly_given _

theorem takesOnly_rfc3339 : TakesOnly IsDateChar rfc3339 := by
  unfold rfc3339
  refine (takesOnly_digits 4 4).bind fun year => (takesOnly_sign rfl).bind fun _ => ?_
  refine (takesOnly_digits 2 2).bind fun month => (takesOnly_sign rfl).bind fun _ => ?_
  refine (takesOnly_digits 2 2).bind fun day => ?_
  -- The letter between the date and the time of day may be a blank.
  have hletter : TakesOnly IsDateChar (oneOf ['T', 't', ' ']) := takesOnly_oneOf fun c hc => by
    simp only [List.mem_cons, List.not_mem_nil, or_false] at hc
    rcases hc with rfl | rfl | rfl
    · exact .inr (.inr (by decide))
    · exact .inr (.inr (by decide))
    · exact .inr (.inl (by decide))
  refine hletter.bind fun _ => ?_
  refine (takesOnly_digits 2 2).bind fun hour => (takesOnly_sign rfl).bind fun _ => ?_
  refine (takesOnly_digits 2 2).bind fun minute => (takesOnly_sign rfl).bind fun _ => ?_
  refine (takesOnly_digits 2 2).bind fun second => takesOnly_fraction.bind fun nanos => ?_
  refine takesOnly_rfc3339Offset.bind fun offset => (takesOnly_given _).bind fun t => ?_
  exact takesOnly_given _

/-! ## Dates -/

/-- A reader of a whole text has taken all of it. -/
theorem Reader.TakesOnly.of_whole? {α : Type} {P : Char → Prop} {reader : Reader α}
    (h : TakesOnly P reader) {text : List Char} {a : α} (hread : whole? reader text = some a) :
    ∀ c ∈ text, P c := by
  obtain ⟨taken, rfl, htaken⟩ := h text a [] (whole?_eq_some.1 hread)
  rwa [List.append_nil]

/-- **A date that a query accepts is made of digits, blanks, and a few signs and letters.** -/
theorem isDateChar_of_readIso? {text : List Char} {t : Instant} (h : readIso? text = some t) :
    ∀ c ∈ text, IsDateChar c := by
  rw [readIso?, Option.orElse_eq_or, Option.orElse_eq_or, Option.or_eq_some_iff,
    Option.or_eq_some_iff] at h
  rcases h with hrfc3339 | ⟨-, hdateTime | ⟨-, hdate⟩⟩
  · exact takesOnly_rfc3339.of_whole? hrfc3339
  · refine TakesOnly.of_whole? (takesOnly_looseDate.bind fun date => ?_) hdateTime
    exact (takesOnly_sign rfl).bind fun _ => takesOnly_looseTimeOn date
  · obtain ⟨date, hread, -⟩ := Option.bind_eq_some_iff.1 hdate
    exact takesOnly_looseDate.of_whole? hread

end MetadataSearch.Instant
