import Mathlib.Algebra.Order.Ring.Nat
import MetadataSearch.Numeral

/-!
# Digits

Padded numbers have as many digits as they were given room for, and their digits are read back as the
number. A number of so many digits is below that power of ten. A text is read as a whole number iff it
spells that number: a sign or none, and digits with their value (`readInt?_eq_some_iff`).
-/

namespace MetadataSearch.Numeral

theorem ne_of_isDigit {c d : Char} (hc : c.isDigit = true) (hd : d.isDigit = false) : c ≠ d := by
  rintro rfl
  rw [hc] at hd
  cases hd

theorem isDigit_of_mem_ofNat {n : Nat} {c : Char} (h : c ∈ ofNat n) : c.isDigit = true :=
  Nat.isDigit_of_mem_toDigits (by decide) (by decide) h

theorem isDigit_of_mem_padded {width n : Nat} {c : Char} (h : c ∈ padded width n) :
    c.isDigit = true := by
  rcases List.mem_append.1 h with hzero | hdigit
  · rw [List.eq_of_mem_replicate hzero]
    rfl
  · exact isDigit_of_mem_ofNat hdigit

theorem value_padded (width n : Nat) : value (padded width n) = n := by
  rw [value, padded, Nat.ofDigitChars_append, Nat.ofDigitChars_replicate_zero, Nat.mul_zero]
  exact Nat.ofDigitChars_ten_toDigits

theorem length_padded {width n : Nat} (hwidth : 0 < width) (hn : n < 10 ^ width) :
    (padded width n).length = width := by
  have hle : (ofNat n).length ≤ width := (Nat.length_toDigits_le_iff (by decide) hwidth).2 hn
  rw [padded, List.length_append, List.length_replicate]
  omega

theorem ofDigitChars_lt {digits : List Char} (hdigits : ∀ c ∈ digits, c.isDigit = true) (init : Nat) :
    Nat.ofDigitChars 10 digits init < (init + 1) * 10 ^ digits.length := by
  induction digits generalizing init with
  | nil => simp
  | cons c digits ih =>
    have hc : c.toNat - '0'.toNat ≤ 9 := by
      exact Nat.sub_le_sub_right (Char.isDigit_iff_toNat.1 (hdigits c List.mem_cons_self)).2 _
    rw [Nat.ofDigitChars_cons, List.length_cons, Nat.pow_succ]
    calc Nat.ofDigitChars 10 digits (10 * init + (c.toNat - '0'.toNat))
        < (10 * init + (c.toNat - '0'.toNat) + 1) * 10 ^ digits.length :=
          ih (fun d hd => hdigits d (List.mem_cons_of_mem _ hd)) _
      _ ≤ (10 * (init + 1)) * 10 ^ digits.length := Nat.mul_le_mul_right _ (by omega)
      _ = (init + 1) * (10 ^ digits.length * 10) := by
          rw [Nat.mul_comm 10, Nat.mul_assoc, Nat.mul_comm 10]

theorem value_lt {digits : List Char} (hdigits : ∀ c ∈ digits, c.isDigit = true) :
    value digits < 10 ^ digits.length := by
  have h := ofDigitChars_lt hdigits 0
  rwa [Nat.zero_add, Nat.one_mul] at h

/-! ## Whole numbers that are read -/

/-- What stands in a whole number. -/
def IsIntegerChar (c : Char) : Prop := c.isDigit = true ∨ c = '+' ∨ c = '-'

/-- One or more digits. -/
def IsDigits (digits : List Char) : Prop := digits ≠ [] ∧ ∀ c ∈ digits, c.isDigit = true

theorem isDigits_ofNat (n : Nat) : IsDigits (ofNat n) :=
  ⟨Nat.toDigits_ne_nil, fun _ hc => isDigit_of_mem_ofNat hc⟩

theorem readNat?_eq_some_iff {text : List Char} {n : Nat} :
    readNat? text = some n ↔ IsDigits text ∧ value text = n := by
  rw [readNat?, IsDigits]
  split
  case isTrue h =>
    rw [Bool.or_eq_true, List.isEmpty_iff, Bool.not_eq_true'] at h
    refine ⟨fun hnone => (Option.some_ne_none n hnone.symm).elim, fun ⟨⟨hne, hdigits⟩, _⟩ => ?_⟩
    rcases h with hnil | hall
    · exact absurd hnil hne
    · rw [List.all_eq_true.2 hdigits] at hall
      cases hall
  case isFalse h =>
    simp only [Bool.or_eq_true, List.isEmpty_iff, Bool.not_eq_true', not_or, Bool.not_eq_false] at h
    exact ⟨fun hsome => ⟨⟨h.1, List.all_eq_true.1 h.2⟩, Option.some.inj hsome⟩,
      fun hvalue => congrArg some hvalue.2⟩

/-- How a whole number is written: digits, with zeros in front or without, behind a sign or none. -/
inductive Spells : List Char → Int → Prop
  | unsigned {digits : List Char} (h : IsDigits digits) : Spells digits (value digits)
  | positive {digits : List Char} (h : IsDigits digits) : Spells ('+' :: digits) (value digits)
  | negative {digits : List Char} (h : IsDigits digits) : Spells ('-' :: digits) (-(value digits : Int))

/-- **A text is read as the number that it spells, and read only if it spells one.** -/
theorem readInt?_eq_some_iff {text : List Char} {n : Int} : readInt? text = some n ↔ Spells text n := by
  constructor
  · intro h
    unfold readInt? at h
    split at h
    all_goals
      obtain ⟨_, hcast, rfl⟩ := Option.map_eq_some_iff.1 h
      obtain ⟨m, hread, hm⟩ := Option.bind_eq_some_iff.1 hcast
      obtain rfl := Option.some.inj hm
      obtain ⟨hdigits, rfl⟩ := readNat?_eq_some_iff.1 hread
    case h_1 => exact .positive hdigits
    case h_2 => exact .negative hdigits
    case h_3 => exact .unsigned hdigits
  · intro h
    cases h with
    | positive hdigits =>
      rw [readInt?, readNat?_eq_some_iff.2 ⟨hdigits, rfl⟩]
      rfl
    | negative hdigits =>
      rw [readInt?, readNat?_eq_some_iff.2 ⟨hdigits, rfl⟩]
      rfl
    | unsigned hdigits =>
      have hread := readNat?_eq_some_iff.2 ⟨hdigits, rfl⟩
      unfold readInt?
      split
      case h_1 => exact absurd (hdigits.2 _ List.mem_cons_self) (by decide)
      case h_2 => exact absurd (hdigits.2 _ List.mem_cons_self) (by decide)
      case h_3 =>
        rw [hread]
        rfl

theorem spells_ofInt (n : Int) : Spells (ofInt n) n := by
  have hvalue : value (ofNat n.natAbs) = n.natAbs := Nat.ofDigitChars_ten_toDigits
  rw [ofInt]
  by_cases hneg : n < 0
  · rw [if_pos hneg]
    have h := Spells.negative (isDigits_ofNat n.natAbs)
    rwa [hvalue, show -(n.natAbs : Int) = n by omega] at h
  · rw [if_neg hneg]
    have h := Spells.unsigned (isDigits_ofNat n.natAbs)
    rwa [hvalue, show (n.natAbs : Int) = n by omega] at h

theorem int64?_toInt (n : Int64) : int64? n.toInt = some n := by
  rw [int64?, if_pos ⟨n.minValue_le_toInt, n.toInt_le⟩, Int64.ofInt_toInt]

theorem readInt64?_of_spells {text : List Char} {n : Int64} (h : Spells text n.toInt) :
    readInt64? text = some n := by
  rw [readInt64?, readInt?_eq_some_iff.2 h, Option.bind_some, int64?_toInt]

/-- A whole number is a sign, if any, and at least one digit. -/
theorem Spells.isIntegerChar {text : List Char} {n : Int} (h : Spells text n) :
    text ≠ [] ∧ ∀ c ∈ text, IsIntegerChar c := by
  cases h with
  | unsigned hdigits => exact ⟨hdigits.1, fun c hc => .inl (hdigits.2 c hc)⟩
  | positive hdigits =>
    exact ⟨List.cons_ne_nil _ _, fun c hc => (List.mem_cons.1 hc).elim (fun h => .inr (.inl h))
      fun hc => .inl (hdigits.2 c hc)⟩
  | negative hdigits =>
    exact ⟨List.cons_ne_nil _ _, fun c hc => (List.mem_cons.1 hc).elim (fun h => .inr (.inr h))
      fun hc => .inl (hdigits.2 c hc)⟩

theorem isIntegerChar_of_readInt64? {text : List Char} {n : Int64} (h : readInt64? text = some n) :
    text ≠ [] ∧ ∀ c ∈ text, IsIntegerChar c := by
  obtain ⟨m, hm, -⟩ := Option.bind_eq_some_iff.1 h
  exact (readInt?_eq_some_iff.1 hm).isIntegerChar

end MetadataSearch.Numeral
