import Mathlib.Data.List.TakeWhile
import MetadataSearch.Instant.Text
import MetadataSearch.Proofs.Numeral.Digits

/-!
# Laws of readers

What a reader does is followed through a sequence of readers by one lemma, `bind_eq_some`. Three
properties come with rules for sequences:

- `TakesFront`: what is left is the back of the text.
- `EndsAtDigit`: moreover the last character that was taken is a digit. For a sequence it is enough
  that the last reader has it and the others take the front.
- `Gives P`: every value that is read has the property `P`.

`number_padded` and `oneOf_cons` read back what was written.
-/

namespace MetadataSearch.Instant.Reader

variable {α β : Type} {reader : Reader α} {next : α → Reader β}

/-! ## Sequences -/

theorem bind_eq_some {text rest : List Char} {b : β} :
    (reader >>= next) text = some (b, rest) ↔
      ∃ a mid, reader text = some (a, mid) ∧ next a mid = some (b, rest) := by
  constructor
  · intro h
    obtain ⟨⟨a, mid⟩, hreader, hnext⟩ := Option.bind_eq_some_iff.1 h
    exact ⟨a, mid, hreader, hnext⟩
  · rintro ⟨a, mid, hreader, hnext⟩
    exact Option.bind_eq_some_iff.2 ⟨(a, mid), hreader, hnext⟩

/-- A reader that succeeds hands what is left to the next one. -/
theorem bind_of_eq_some {text mid : List Char} {a : α} (h : reader text = some (a, mid)) :
    (reader >>= next) text = next a mid := by
  show (reader text).bind (fun p => next p.1 p.2) = next a mid
  rw [h, Option.bind_some]

theorem bind_of_eq_none {text : List Char} (h : reader text = none) :
    (reader >>= next) text = none := by
  show (reader text).bind (fun p => next p.1 p.2) = none
  rw [h, Option.bind_none]

theorem pure_eq_some {a b : α} {text rest : List Char} :
    (pure a : Reader α) text = some (b, rest) ↔ a = b ∧ text = rest := by
  constructor
  · intro h
    exact Prod.mk.inj (Option.some.inj h)
  · rintro ⟨rfl, rfl⟩
    rfl

theorem given_eq_some {value : Option α} {a : α} {text rest : List Char} :
    given value text = some (a, rest) ↔ value = some a ∧ text = rest := by
  cases value <;> simp [given]

theorem whole?_eq_some {text : List Char} {a : α} :
    whole? reader text = some a ↔ reader text = some (a, []) := by
  unfold whole?
  split
  case h_1 b h => simp [h]
  case h_2 h =>
    constructor
    · intro hnone
      cases hnone
    · intro hsome
      exact absurd hsome (h a)

/-! ## What readers take -/

/-- What is left is the back of the text. -/
def TakesFront (reader : Reader α) : Prop :=
  ∀ text a rest, reader text = some (a, rest) → rest <:+ text

/-- The last character that was taken is a digit. -/
def EndsAtDigit (reader : Reader α) : Prop :=
  ∀ text a rest, reader text = some (a, rest) →
    ∃ front d, d.isDigit = true ∧ text = front ++ d :: rest

theorem EndsAtDigit.takesFront (h : EndsAtDigit reader) : TakesFront reader := by
  intro text a rest hread
  obtain ⟨front, d, -, rfl⟩ := h text a rest hread
  exact ⟨front ++ [d], List.append_assoc front [d] rest⟩

theorem TakesFront.bind_endsAtDigit (h : TakesFront reader) (hnext : ∀ a, EndsAtDigit (next a)) :
    EndsAtDigit (reader >>= next) := by
  intro text b rest hread
  obtain ⟨a, mid, hfirst, hsecond⟩ := bind_eq_some.1 hread
  obtain ⟨taken, rfl⟩ := h text a mid hfirst
  obtain ⟨front, d, hd, rfl⟩ := hnext a mid b rest hsecond
  exact ⟨taken ++ front, d, hd, (List.append_assoc taken front _).symm⟩

/-- A value that is only looked at takes nothing more. -/
theorem EndsAtDigit.bind_given (h : EndsAtDigit reader) {value : α → Option β} :
    EndsAtDigit (reader >>= fun a => given (value a)) := by
  intro text b rest hread
  obtain ⟨a, mid, hfirst, hsecond⟩ := bind_eq_some.1 hread
  obtain ⟨-, rfl⟩ := given_eq_some.1 hsecond
  exact h text a mid hfirst

theorem EndsAtDigit.bind_pure (h : EndsAtDigit reader) {value : α → β} :
    EndsAtDigit (reader >>= fun a => pure (value a)) := by
  intro text b rest hread
  obtain ⟨a, mid, hfirst, hsecond⟩ := bind_eq_some.1 hread
  obtain ⟨-, rfl⟩ := pure_eq_some.1 hsecond
  exact h text a mid hfirst

theorem takesFront_oneOf (allowed : List Char) : TakesFront (oneOf allowed) := by
  intro text a rest hread
  cases text with
  | nil => cases hread
  | cons c text =>
    rw [oneOf] at hread
    split at hread
    case isFalse => cases hread
    case isTrue =>
      obtain ⟨rfl, rfl⟩ := Prod.mk.inj (Option.some.inj hread)
      exact List.suffix_cons c text

theorem takesFront_blanks : TakesFront blanks := by
  intro text a rest hread
  obtain ⟨-, rfl⟩ := Prod.mk.inj (Option.some.inj hread)
  exact List.dropWhile_suffix _

/-- The text of a number is its digits and what is left. -/
theorem number_eq_some {least most n : Nat} {text rest : List Char}
    (h : number least most text = some (n, rest)) :
    ∃ digits, text = digits ++ rest ∧ least ≤ digits.length ∧
      (∀ c ∈ digits, c.isDigit = true) ∧ n = Numeral.value digits := by
  rw [number] at h
  split at h
  case isTrue => cases h
  case isFalse hlength =>
    obtain ⟨rfl, rfl⟩ := Prod.mk.inj (Option.some.inj h)
    refine ⟨_, ?_, Nat.le_of_not_lt hlength, fun c hc => ?_, rfl⟩
    · have hprefix := (List.takeWhile_prefix Char.isDigit).trans (List.take_prefix most text)
      exact (List.prefix_iff_eq_append.1 hprefix).symm
    · exact List.mem_takeWhile_imp hc

theorem endsAtDigit_number {least : Nat} (most : Nat) (hleast : 0 < least) :
    EndsAtDigit (number least most) := by
  intro text n rest hread
  obtain ⟨digits, rfl, hlength, hdigits, -⟩ := number_eq_some hread
  obtain ⟨front, d, rfl⟩ : ∃ front d, digits = front ++ [d] := by
    rcases List.eq_nil_or_concat digits with rfl | ⟨front, d, h⟩
    · exact absurd hlength (Nat.not_le.2 hleast)
    · exact ⟨front, d, by rw [h, List.concat_eq_append]⟩
  exact ⟨front, d, hdigits d (List.mem_append_right _ List.mem_cons_self),
    List.append_assoc front [d] rest⟩

/-! ## What readers give -/

/-- Every value that is read has a property. -/
def Gives (reader : Reader α) (P : α → Prop) : Prop :=
  ∀ text a rest, reader text = some (a, rest) → P a

theorem gives_bind {P : β → Prop} {Q : α → Prop} (h : Gives reader Q)
    (hnext : ∀ a, Q a → Gives (next a) P) : Gives (reader >>= next) P := by
  intro text b rest hread
  obtain ⟨a, mid, hfirst, hsecond⟩ := bind_eq_some.1 hread
  exact hnext a (h text a mid hfirst) mid b rest hsecond

/-- A sequence gives what its last reader gives, whatever the first one was. -/
theorem gives_next {P : β → Prop} (hnext : ∀ a, Gives (next a) P) : Gives (reader >>= next) P := by
  have hany : Gives reader fun _ => True := fun _ _ _ _ => trivial
  exact gives_bind hany fun a _ => hnext a

theorem gives_given {value : Option α} {P : α → Prop} (h : ∀ a, value = some a → P a) :
    Gives (given value) P := by
  intro text a rest hread
  exact h a (given_eq_some.1 hread).1

/-! ## Written parts are read back -/

theorem number_padded_of_le {least width n : Nat} (hleast : least ≤ width) (hwidth : 0 < width)
    (hn : n < 10 ^ width) (rest : List Char) :
    number least width (Numeral.padded width n ++ rest) = some (n, rest) := by
  have hlength := Numeral.length_padded hwidth hn
  have htake : (Numeral.padded width n ++ rest).take width = Numeral.padded width n :=
    List.take_left' hlength
  have hdigits : (Numeral.padded width n).takeWhile Char.isDigit = Numeral.padded width n :=
    List.takeWhile_eq_self_iff.2 fun c hc => Numeral.isDigit_of_mem_padded hc
  rw [number]
  simp only [htake, hdigits, hlength, Nat.not_lt.2 hleast, if_false, Numeral.value_padded,
    List.drop_left' hlength]

theorem number_padded {width n : Nat} (hwidth : 0 < width) (hn : n < 10 ^ width)
    (rest : List Char) :
    number width width (Numeral.padded width n ++ rest) = some (n, rest) :=
  number_padded_of_le (Nat.le_refl width) hwidth hn rest

theorem oneOf_cons {allowed : List Char} {c : Char} (h : allowed.contains c = true)
    (rest : List Char) : oneOf allowed (c :: rest) = some (c, rest) := by
  rw [oneOf]
  exact if_pos h

end MetadataSearch.Instant.Reader
