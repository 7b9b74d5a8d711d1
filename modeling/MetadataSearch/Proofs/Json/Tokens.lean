import MetadataSearch.Json.Token
import MetadataSearch.Proofs.Numeral.Digits

/-!
# Tokens of written JSON

What `Json.write` puts down for a string or for a whole number is one token, which `Json.token?`
takes back.

* `readChars?_escaped` — the escapes of a text are undone up to the closing quote. Every escape is a
  piece of its own, so the statement is an induction over the characters.
* `readMagnitude?_ofNat` — the digits of a whole number are all taken, because what follows a number
  in written JSON is no digit, no point and no exponent.
* `token?_string` and `token?_ofInt` put the first character in front.
-/

namespace MetadataSearch.Json

/-! ## Strings -/

theorem hexValue?_digitChar {d : Nat} (h : d < 16) : hexValue? (Nat.digitChar d) = some d := by
  have all : ∀ d < 16, hexValue? (Nat.digitChar d) = some d := by decide
  exact all d h

/-- The four digits of a code below `10000` in base sixteen are read back. -/
theorem hexQuad?_hexDigits {n : Nat} (h : n < 65536) :
    hexQuad? (Nat.digitChar (n / 4096 % 16)) (Nat.digitChar (n / 256 % 16))
      (Nat.digitChar (n / 16 % 16)) (Nat.digitChar (n % 16)) = some n := by
  have digit (m : Nat) : hexValue? (Nat.digitChar (m % 16)) = some (m % 16) :=
    hexValue?_digitChar (Nat.mod_lt m (by decide))
  simp only [hexQuad?, digit, Option.pure_def, Option.bind_eq_bind, Option.bind_some,
    Option.some.injEq]
  omega

theorem readChars?_quote (rest : List Char) : readChars? ('"' :: rest) = some ([], rest) := by
  rw [readChars?.eq_def]
  simp only [if_true]

theorem readChars?_plain {c : Char} (hquote : c ≠ '"') (hslash : c ≠ '\\') (h : ¬ c.toNat < 0x20)
    (rest : List Char) :
    readChars? (c :: rest) = (readChars? rest).map fun (cs, tail) => (c :: cs, tail) := by
  rw [readChars?.eq_def]
  simp only [if_neg hquote, if_neg hslash, if_neg h]

theorem readChars?_letter {e ch : Char} (h : unescape? e = some ch) (rest : List Char) :
    readChars? ('\\' :: e :: rest) =
      (readChars? rest).map fun (cs, tail) => (ch :: cs, tail) := by
  have hu : e ≠ 'u' := by
    rintro rfl
    cases h
  rw [readChars?.eq_def]
  simp only [show ('\\' : Char) ≠ '"' by decide, if_false, if_true]
  split
  · next heq => exact absurd (List.cons.inj heq).1 hu
  · next heq =>
    obtain ⟨rfl, rfl⟩ := List.cons.inj heq
    rw [h]
  · next heq => cases heq

theorem readChars?_unit {p q r s : Char} {n : Nat} (h : hexQuad? p q r s = some n)
    (hhigh : isHighSurrogate n = false) (hlow : isLowSurrogate n = false) (rest : List Char) :
    readChars? ('\\' :: 'u' :: p :: q :: r :: s :: rest) =
      (readChars? rest).map fun (cs, tail) => (Char.ofNat n :: cs, tail) := by
  rw [readChars?.eq_def]
  simp only [show ('\\' : Char) ≠ '"' by decide, if_false, if_true, h, hhigh, hlow,
    Bool.false_eq_true]

/-- One character is read back from its escape. -/
theorem readChars?_escapeChar (c : Char) (rest : List Char) :
    readChars? (escapeChar c ++ rest) =
      (readChars? rest).map fun (cs, tail) => (c :: cs, tail) := by
  unfold escapeChar
  split
  case h_1 => exact readChars?_letter rfl rest
  case h_2 => exact readChars?_letter rfl rest
  case h_3 => exact readChars?_letter rfl rest
  case h_4 => exact readChars?_letter rfl rest
  case h_5 => exact readChars?_letter rfl rest
  case h_6 => exact readChars?_letter rfl rest
  case h_7 => exact readChars?_letter rfl rest
  case h_8 d hquote hslash _ _ _ _ _ =>
    split
    · next h =>
      have high : isHighSurrogate c.toNat = false := by
        simp only [isHighSurrogate, Bool.and_eq_false_iff, decide_eq_false_iff_not]
        omega
      have low : isLowSurrogate c.toNat = false := by
        simp only [isLowSurrogate, Bool.and_eq_false_iff, decide_eq_false_iff_not]
        omega
      have back := readChars?_unit (hexQuad?_hexDigits (n := c.toNat) (by omega)) high low rest
      rw [Char.ofNat_toNat] at back
      exact back
    · next h => exact readChars?_plain hquote hslash h rest

theorem readChars?_escaped (text rest : List Char) :
    readChars? (text.flatMap escapeChar ++ '"' :: rest) = some (text, rest) := by
  induction text with
  | nil => exact readChars?_quote rest
  | cons c text ih =>
    rw [List.flatMap_cons, List.append_assoc, readChars?_escapeChar, ih]
    rfl

theorem token?_string (s : String) (rest : List Char) :
    token? '"' (s.toList.flatMap escapeChar ++ '"' :: rest) = some (.string s, rest) := by
  simp only [token?, readChars?_escaped, Option.map_some, String.ofList_toList]

/-! ## Whole numbers -/

/-- Nothing at the front of the text would go on with a number. -/
def EndsNumber (text : List Char) : Prop :=
  ∀ c rest, text = c :: rest →
    c.isDigit = false ∧ c ≠ '.' ∧ (c == 'e' || c == 'E') = false

theorem endsNumber_nil : EndsNumber [] := by
  intro c rest h
  cases h

theorem endsNumber_cons {c : Char} {text : List Char} (h : c = ',' ∨ c = ']' ∨ c = '\x7d') :
    EndsNumber (c :: text) := by
  intro d rest heq
  obtain ⟨rfl, rfl⟩ := List.cons.inj heq
  rcases h with rfl | rfl | rfl <;> decide

/-- Digits are taken up to the end of the number. -/
theorem takeWhile_digits {digits rest : List Char} (hdigits : ∀ c ∈ digits, c.isDigit = true)
    (hrest : EndsNumber rest) : (digits ++ rest).takeWhile Char.isDigit = digits := by
  rw [List.takeWhile_append_of_pos hdigits]
  cases rest with
  | nil => simp only [List.takeWhile_nil, List.append_nil]
  | cons c rest => rw [List.takeWhile_cons_of_neg (by simp [(hrest c rest rfl).1]), List.append_nil]

theorem dropWhile_digits {digits rest : List Char} (hdigits : ∀ c ∈ digits, c.isDigit = true)
    (hrest : EndsNumber rest) : (digits ++ rest).dropWhile Char.isDigit = rest := by
  rw [List.dropWhile_append_of_pos hdigits]
  cases rest with
  | nil => rfl
  | cons c rest => rw [List.dropWhile_cons_of_neg (by simp [(hrest c rest rfl).1])]

/-- A number of two digits or more does not start with zero. -/
theorem head_ofNat_ne_zero (n : Nat) (hn : 0 < n) : (Numeral.ofNat n).head? ≠ some '0' := by
  induction n using Nat.strongRecOn with
  | ind n ih =>
    by_cases h : n < 10
    · have all : ∀ m < 10, 0 < m → (Nat.digitChar m) ≠ '0' := by decide
      rw [Numeral.ofNat, Nat.toDigits_of_lt_base h, List.head?_cons]
      exact fun heq => all n h hn (Option.some.inj heq)
    · have split := Nat.toDigits_of_base_le (b := 10) (n := n) (by decide) (by omega)
      rw [Numeral.ofNat, split, List.head?_append]
      have before := ih (n / 10) (by omega) (by omega)
      rw [Numeral.ofNat] at before
      cases hdigits : Nat.toDigits 10 (n / 10) with
      | nil => exact absurd hdigits Nat.toDigits_ne_nil
      | cons d digits => rwa [hdigits] at before

theorem ofNat_zero : Numeral.ofNat 0 = ['0'] := Nat.toDigits_zero 10

theorem readDigits?_ofNat (n : Nat) {rest : List Char} (hrest : EndsNumber rest) :
    readDigits? (Numeral.ofNat n ++ rest) = some (Numeral.ofNat n, rest) := by
  have hdigits : ∀ c ∈ Numeral.ofNat n, c.isDigit = true := fun c hc => Numeral.isDigit_of_mem_ofNat hc
  simp only [readDigits?, takeWhile_digits hdigits hrest, dropWhile_digits hdigits hrest]
  split
  · next h => exact absurd h Nat.toDigits_ne_nil
  · next h =>
    -- A leading zero stands alone, because only the number zero has one.
    rcases Nat.eq_zero_or_pos n with rfl | hn
    · rw [ofNat_zero] at h
      cases h
    · refine absurd ?_ (head_ofNat_ne_zero n hn)
      rw [h, List.head?_cons]
  · rfl

theorem readFraction?_of_ends {rest : List Char} (hrest : EndsNumber rest) :
    readFraction? rest = some ([], rest) := by
  unfold readFraction?
  split
  · exact absurd rfl (hrest _ _ rfl).2.1
  · rfl

theorem readExponent?_of_ends {rest : List Char} (hrest : EndsNumber rest) :
    readExponent? rest = some (none, rest) := by
  cases rest with
  | nil => rfl
  | cons c rest => simp only [readExponent?, (hrest c rest rfl).2.2, Bool.false_eq_true, if_false]

/-- The digits of a whole number make that number, with the sign that was read before them. -/
theorem readMagnitude?_ofNat {negative : Bool} {n : Nat} {i : Int64}
    (hi : int64? (if negative then -(n : Int) else n) = some i) (hn : n < UInt64.size)
    (hzero : (negative && n == 0) = false) {rest : List Char} (hrest : EndsNumber rest) :
    readMagnitude? negative (Numeral.ofNat n ++ rest) = some (.integer i, rest) := by
  have hvalue : Numeral.value (Numeral.ofNat n) = n := Nat.ofDigitChars_ten_toDigits
  simp only [readMagnitude?, readDigits?_ofNat n hrest, readFraction?_of_ends hrest,
    readExponent?_of_ends hrest, Option.bind_some, number?, List.isEmpty_nil, Option.isNone_none,
    Bool.and_self, if_true, wholeNumber?, hvalue, if_pos hn, hzero, Bool.false_eq_true, if_false,
    hi, Option.map_some]

theorem token?_digit {c : Char} (h : c.isDigit = true) (rest : List Char) :
    token? c rest = (readMagnitude? false (c :: rest)).map fun (j, after) => (.scalar j, after) := by
  unfold token?
  split
  case h_12 => rfl
  all_goals exact absurd h (by decide)

/-- An integer is one token; its first character is a sign or a digit. -/
theorem token?_ofInt (n : Int64) {rest : List Char} (hrest : EndsNumber rest) :
    ∃ c more, Numeral.ofInt n.toInt ++ rest = c :: more ∧ (c = '-' ∨ c.isDigit = true) ∧
      token? c more = some (.scalar (.integer n), rest) := by
  have low := n.le_toInt
  have high := n.toInt_lt
  have back := Numeral.int64?_toInt n
  by_cases hneg : n.toInt < 0
  · refine ⟨'-', Numeral.ofNat n.toInt.natAbs ++ rest, ?_, .inl rfl, ?_⟩
    · rw [Numeral.ofInt, if_pos hneg, List.cons_append]
    · have hread : readMagnitude? true (Numeral.ofNat n.toInt.natAbs ++ rest) =
          some (.integer n, rest) := by
        refine readMagnitude?_ofNat ?_ (by rw [UInt64.size]; omega) (by simp; omega) hrest
        rw [if_pos rfl, show -(n.toInt.natAbs : Int) = n.toInt by omega, back]
      simp only [token?, hread, Option.map_some]
  · have hread : readMagnitude? false (Numeral.ofNat n.toInt.natAbs ++ rest) =
        some (.integer n, rest) := by
      refine readMagnitude?_ofNat ?_ (by rw [UInt64.size]; omega) rfl hrest
      rw [if_neg (by decide), show (n.toInt.natAbs : Int) = n.toInt by omega, back]
    obtain ⟨d, digits, hdigits⟩ := List.exists_cons_of_ne_nil
      (show Numeral.ofNat n.toInt.natAbs ≠ [] from Nat.toDigits_ne_nil)
    have hd : d.isDigit = true := Numeral.isDigit_of_mem_ofNat (hdigits ▸ List.mem_cons_self)
    refine ⟨d, digits ++ rest, ?_, .inr hd, ?_⟩
    · rw [Numeral.ofInt, if_neg hneg, hdigits, List.cons_append]
    · rw [hdigits] at hread
      rw [token?_digit hd, ← List.cons_append, hread]
      rfl

end MetadataSearch.Json
