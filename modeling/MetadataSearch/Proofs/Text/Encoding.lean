import MetadataSearch.Text.Utf8

/-!
# Reading what was encoded

**Theorem (`decodeLossy_encode`).** The bytes of a text are read as that text. So `decode?` gives a text for
the bytes of texts, and for no others (`decode?_eq_some_iff`).

A character has one to four bytes. The first of them says how many are owed, and within which bounds the
next one lies (`beginChar_two` and its neighbours); every later one adds six bits (`takeByte_more`,
`takeByte_last`). The bounds are narrow where a shorter form exists, at the surrogates and at the end of the
code space, and no character lies there.
-/

namespace MetadataSearch.Text

theorem encode_cons (c : Char) (text : List Char) :
    encode (c :: text) = String.utf8EncodeChar c ++ encode text := rfl

theorem encode_append (text more : List Char) : encode (text ++ more) = encode text ++ encode more :=
  List.flatMap_append

theorem decodeFrom_cons (pending : Option Pending) (b : UInt8) (rest : List UInt8) :
    decodeFrom pending (b :: rest) =
      (takeByte pending b).1 ++ decodeFrom (takeByte pending b).2 rest := rfl

theorem toNat_ofNat_of_lt {n : Nat} (h : n < 256) : (UInt8.ofNat n).toNat = n :=
  UInt8.toNat_ofNat_of_lt h

/-! ## First bytes -/

theorem beginChar_one {n : Nat} (h : n < 128) : beginChar (.ofNat n) = ([Char.ofNat n], none) := by
  rw [beginChar, toNat_ofNat_of_lt (by omega)]
  exact if_pos h

theorem beginChar_two {n : Nat} (hlow : 2 ≤ n) (hhigh : n < 32) :
    beginChar (.ofNat (n + 192)) = ([], some ⟨1, 0x80, 0xBF, n⟩) := by
  rw [beginChar, toNat_ofNat_of_lt (by omega)]
  rw [if_neg (by omega), if_neg (by omega), if_pos (by omega), Nat.add_sub_cancel]

theorem beginChar_three {n : Nat} (h : n < 16) :
    beginChar (.ofNat (n + 224)) =
      ([], some ⟨2, if n = 0 then 0xA0 else 0x80, if n = 13 then 0x9F else 0xBF, n⟩) := by
  rw [beginChar, toNat_ofNat_of_lt (by omega)]
  simp only [beq_iff_eq]
  rw [if_neg (by omega), if_neg (by omega), if_neg (by omega), if_pos (by omega), Nat.add_sub_cancel]
  simp only [Nat.add_eq_right, Nat.reduceEqDiff]

theorem beginChar_four {n : Nat} (h : n < 5) :
    beginChar (.ofNat (n + 240)) =
      ([], some ⟨3, if n = 0 then 0x90 else 0x80, if n = 4 then 0x8F else 0xBF, n⟩) := by
  rw [beginChar, toNat_ofNat_of_lt (by omega)]
  simp only [beq_iff_eq]
  rw [if_neg (by omega), if_neg (by omega), if_neg (by omega), if_neg (by omega), if_pos (by omega),
    Nat.add_sub_cancel]
  simp only [Nat.add_eq_right, Nat.reduceEqDiff]

/-! ## Later bytes -/

theorem takeByte_within {p : Pending} {n : Nat} (hn : n < 64) (hlow : p.low ≤ n + 128)
    (hhigh : n + 128 ≤ p.high) :
    takeByte (some p) (.ofNat (n + 128)) =
      if p.owed ≤ 1 then ([Char.ofNat (p.bits * 64 + n)], none)
      else ([], some ⟨p.owed - 1, 0x80, 0xBF, p.bits * 64 + n⟩) := by
  have hbits : (n + 128) % 64 = n := by omega
  rw [takeByte, toNat_ofNat_of_lt (by omega)]
  simp only [hlow, hhigh, hbits, decide_true, Bool.and_self, if_true]

/-- The last byte that is owed completes the character. -/
theorem takeByte_last {low high bits n : Nat} (hn : n < 64) (hlow : low ≤ n + 128)
    (hhigh : n + 128 ≤ high) :
    takeByte (some ⟨1, low, high, bits⟩) (.ofNat (n + 128)) =
      ([Char.ofNat (bits * 64 + n)], none) := by
  rw [takeByte_within hn hlow hhigh, if_pos (Nat.le_refl 1)]

/-- Any byte before the last one leaves the next one free. -/
theorem takeByte_more {owed low high bits n : Nat} (hn : n < 64) (hlow : low ≤ n + 128)
    (hhigh : n + 128 ≤ high) :
    takeByte (some ⟨owed + 2, low, high, bits⟩) (.ofNat (n + 128)) =
      ([], some ⟨owed + 1, 0x80, 0xBF, bits * 64 + n⟩) := by
  rw [takeByte_within hn hlow hhigh, if_neg (by simp)]
  rfl

/-! ## Characters -/

/-- **The bytes of a character are read as the character.** -/
theorem decodeFrom_encodeChar (c : Char) (rest : List UInt8) :
    decodeFrom none (String.utf8EncodeChar c ++ rest) = c :: decodeFrom none rest := by
  have hvalid : c.val.toNat < 0xD800 ∨ 0xDFFF < c.val.toNat ∧ c.val.toNat < 0x110000 := c.valid
  have hchar : Char.ofNat c.val.toNat = c := Char.ofNat_toNat c
  rw [String.utf8EncodeChar]
  generalize c.val.toNat = v at hvalid hchar
  by_cases hone : v ≤ 0x7F
  · rw [if_pos hone, List.cons_append, decodeFrom_cons, takeByte, beginChar_one (by omega), hchar]
    rfl
  rw [if_neg hone]
  by_cases htwo : v ≤ 0x7FF
  · have hbits : v / 64 % 32 * 64 + v % 64 = v := by omega
    rw [if_pos htwo]
    simp only [List.cons_append, List.nil_append, decodeFrom_cons, takeByte.eq_1]
    rw [beginChar_two (by omega) (by omega), takeByte_last (by omega) (by omega) (by omega), hbits, hchar]
    rfl
  rw [if_neg htwo]
  by_cases hthree : v ≤ 0xFFFF
  · have hbits : (v / 4096 % 16 * 64 + v / 64 % 64) * 64 + v % 64 = v := by omega
    rw [if_pos hthree]
    simp only [List.cons_append, List.nil_append, decodeFrom_cons, takeByte.eq_1]
    rw [beginChar_three (by omega), takeByte_more (by omega) (by split <;> omega) (by split <;> omega),
      takeByte_last (by omega) (by omega) (by omega), hbits, hchar]
    rfl
  · have hbits : ((v / 262144 % 8 * 64 + v / 4096 % 64) * 64 + v / 64 % 64) * 64 + v % 64 = v := by omega
    rw [if_neg hthree]
    simp only [List.cons_append, List.nil_append, decodeFrom_cons, takeByte.eq_1]
    rw [beginChar_four (by omega), takeByte_more (by omega) (by split <;> omega) (by split <;> omega),
      takeByte_more (by omega) (by omega) (by omega), takeByte_last (by omega) (by omega) (by omega),
      hbits, hchar]
    rfl

/-! ## Texts -/

/-- **What was encoded is read back.** -/
theorem decodeLossy_encode (text : List Char) : decodeLossy (encode text) = text := by
  induction text with
  | nil => rfl
  | cons c text ih =>
    rw [decodeLossy] at ih ⊢
    rw [encode_cons, decodeFrom_encodeChar, ih]

theorem decode?_eq_some_iff {bytes : List UInt8} {text : List Char} :
    decode? bytes = some text ↔ encode text = bytes := by
  rw [decode?]
  constructor
  · intro h
    split at h
    case isTrue hbytes =>
      obtain rfl := Option.some.inj h
      exact hbytes
    case isFalse => cases h
  · rintro rfl
    rw [decodeLossy_encode, if_pos rfl]

/-- A byte below 128 is a character of its own. -/
theorem head?_encode_iff {text : List Char} {c : Char} (h : c.toNat < 128) :
    (encode text).head? = some (.ofNat c.toNat) ↔ text.head? = some c := by
  constructor
  · intro hbyte
    obtain ⟨rest, hencode⟩ := List.head?_eq_some_iff.1 hbyte
    have htext := decodeLossy_encode text
    rw [hencode, decodeLossy, decodeFrom_cons, takeByte, beginChar_one h, Char.ofNat_toNat] at htext
    rw [← htext]
    rfl
  · intro hchar
    obtain ⟨rest, rfl⟩ := List.head?_eq_some_iff.1 hchar
    have hone : c.val.toNat ≤ 0x7F := Nat.le_of_lt_succ h
    rw [encode_cons, String.utf8EncodeChar, if_pos hone]
    rfl

end MetadataSearch.Text
