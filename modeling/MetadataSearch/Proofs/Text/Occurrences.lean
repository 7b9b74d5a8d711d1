import Mathlib.Data.List.Infix
import MetadataSearch.Proofs.Text.Encoding
import MetadataSearch.Proofs.Text.FinalSigma
import MetadataSearch.Text.Occurrence

/-!
# Words among arbitrary bytes

**Theorem (`occursIn_lowerCase_decodeLossy`).** If an ASCII word stands in some bytes, up to the case of
its letters, then it stands in the lower case of the text of these bytes, whatever stands around it.

A byte below 128 is never part of a longer character, so it is read as itself even where it ends a broken
one (`decodeFrom_ascii`). An ASCII letter has its small letter as its lower case (`lowerCase_ascii`),
whatever its neighbours are, since it is no sigma. So both steps leave the word together. What they make of
the bytes before it and behind it is not said.
-/

namespace MetadataSearch.Text

/-- The byte with a small letter for a capital one. -/
def smallByte (b : UInt8) : UInt8 := if 65 ≤ b ∧ b ≤ 90 then b + 32 else b

/-- The characters stand somewhere in the bytes without a gap, up to the case of ASCII letters. -/
def StandsIn (word : List Char) (bytes : List UInt8) : Prop :=
  (encode word).map smallByte <:+: bytes.map smallByte

/-! ## Occurrences -/

theorem occursIn_iff {needle text : List Char} : occursIn needle text = true ↔ needle <:+: text := by
  induction text with
  | nil => rw [occursIn, List.isEmpty_iff, List.infix_nil]
  | cons c rest ih =>
    rw [occursIn, Bool.or_eq_true, List.isPrefixOf_iff_prefix, ih, List.infix_cons_iff]

/-! ## Lower case of words -/

def IsAscii (word : List Char) : Prop := ∀ c ∈ word, c.toNat < 128

instance (word : List Char) : Decidable (IsAscii word) :=
  List.decidableBAll (fun c : Char => c.toNat < 128) word

theorem IsAscii.not_sigma {word : List Char} (h : IsAscii word) : 'Σ' ∉ word := by
  intro hsigma
  exact absurd (h 'Σ' hsigma) (by decide)

/-- The lower case of an ASCII word is its small letters. -/
theorem lowerCase_ascii {word : List Char} (h : IsAscii word) :
    lowerCase word = word.map Char.toLower := by
  have hwithin : ∀ before, lowerWithin before [] word = word.map Char.toLower := by
    induction word with
    | nil => exact fun before => rfl
    | cons c word ih =>
      obtain ⟨hc, hword⟩ := List.forall_mem_cons.1 h
      have hsigma : c ≠ 'Σ' := by
        rintro rfl
        exact h.not_sigma List.mem_cons_self
      intro before
      simp [lowerWithin, hsigma, lowerChar, hc, ih hword]
  rw [← lowerWithin_nil, hwithin]

theorem map_toLower_infix_lowerCase {word : List Char} (h : IsAscii word) (front back : List Char) :
    word.map Char.toLower <:+: lowerCase (front ++ word ++ back) := by
  obtain ⟨left, right, hlower⟩ := exists_lowerCase_eq (keepsSigmas_of_not_mem h.not_sigma front back)
  refine ⟨left, right, ?_⟩
  rw [hlower, lowerCase_ascii h, List.append_assoc]

/-! ## Reading words -/

/-- The character of one byte. -/
def charOf (b : UInt8) : Char := Char.ofNat b.toNat

/-- No character goes on with an ASCII byte. -/
def AsciiEnds (pending : Option Pending) : Prop := ∀ p ∈ pending, 128 ≤ p.low

theorem asciiEnds_beginChar (b : UInt8) : AsciiEnds (beginChar b).2 := by
  intro p hp
  simp only [beginChar, apply_ite Prod.snd, Option.mem_def] at hp
  split_ifs at hp <;> cases hp <;> dsimp only <;> decide

theorem asciiEnds_takeByte (pending : Option Pending) (b : UInt8) :
    AsciiEnds (takeByte pending b).2 := by
  cases pending with
  | none => exact asciiEnds_beginChar b
  | some p =>
    rw [takeByte]
    split
    · split
      · intro next hnext
        cases hnext
      · intro next hnext
        obtain rfl := Option.some.inj hnext
        exact Nat.le_refl _
    · exact asciiEnds_beginChar b

/-- Bytes are read without regard to what follows them. -/
theorem exists_decodeFrom_append {pending : Option Pending} (h : AsciiEnds pending)
    (front : List UInt8) : ∃ chars next, AsciiEnds next ∧
      ∀ rest, decodeFrom pending (front ++ rest) = chars ++ decodeFrom next rest := by
  induction front generalizing pending with
  | nil => exact ⟨[], pending, h, fun rest => rfl⟩
  | cons b front ih =>
    obtain ⟨chars, next, hnext, hread⟩ := ih (asciiEnds_takeByte pending b)
    refine ⟨(takeByte pending b).1 ++ chars, next, hnext, fun rest => ?_⟩
    rw [List.cons_append, decodeFrom_cons, hread, List.append_assoc]

/-- An ASCII byte completes its own character and leaves none open. -/
theorem exists_takeByte_ascii {pending : Option Pending} (h : AsciiEnds pending) {b : UInt8}
    (hb : b.toNat < 128) : ∃ broken, takeByte pending b = (broken ++ [charOf b], none) := by
  have hbegin : beginChar b = ([charOf b], none) := by
    rw [beginChar]
    exact if_pos hb
  cases pending with
  | none => exact ⟨[], hbegin⟩
  | some p =>
    have hlow : ¬ p.low ≤ b.toNat := Nat.not_le.2 (Nat.lt_of_lt_of_le hb (h p rfl))
    refine ⟨[replacement], ?_⟩
    simp only [takeByte, decide_eq_false hlow, Bool.false_and, Bool.false_eq_true, if_false, hbegin]
    rfl

theorem decodeFrom_ascii {word : List UInt8} (h : ∀ b ∈ word, b.toNat < 128) (rest : List UInt8) :
    decodeFrom none (word ++ rest) = word.map charOf ++ decodeFrom none rest := by
  induction word with
  | nil => rfl
  | cons b word ih =>
    obtain ⟨hb, hword⟩ := List.forall_mem_cons.1 h
    have hbegin : takeByte none b = ([charOf b], none) := if_pos hb
    rw [List.cons_append, decodeFrom_cons, hbegin, ih hword]
    rfl

/-- The word is read as it is, be it after a broken character. -/
theorem exists_decodeFrom_ascii {pending : Option Pending} (h : AsciiEnds pending) {word : List UInt8}
    (hne : word ≠ []) (hword : ∀ b ∈ word, b.toNat < 128) :
    ∃ broken, ∀ rest, decodeFrom pending (word ++ rest) =
      broken ++ word.map charOf ++ decodeFrom none rest := by
  cases word with
  | nil => exact absurd rfl hne
  | cons b word =>
    obtain ⟨hb, hword⟩ := List.forall_mem_cons.1 hword
    obtain ⟨broken, hbroken⟩ := exists_takeByte_ascii h hb
    refine ⟨broken, fun rest => ?_⟩
    rw [List.cons_append, decodeFrom_cons, hbroken, decodeFrom_ascii hword]
    simp only [List.map_cons, List.append_assoc, List.cons_append, List.nil_append]

theorem exists_decodeLossy_append {word : List UInt8} (hne : word ≠ [])
    (hword : ∀ b ∈ word, b.toNat < 128) (front back : List UInt8) :
    ∃ before behind, decodeLossy (front ++ word ++ back) = before ++ word.map charOf ++ behind := by
  have hnone : AsciiEnds none := fun p hp => nomatch hp
  obtain ⟨chars, next, hnext, hfront⟩ := exists_decodeFrom_append hnone front
  obtain ⟨broken, hread⟩ := exists_decodeFrom_ascii hnext hne hword
  refine ⟨chars ++ broken, decodeFrom none back, ?_⟩
  rw [decodeLossy, List.append_assoc, hfront, hread]
  simp only [List.append_assoc]

/-! ## Words among bytes -/

/-- The byte of an ASCII character. -/
def byteOf (c : Char) : UInt8 := UInt8.ofNat c.toNat

theorem toNat_byteOf {c : Char} (h : c.toNat < 128) : (byteOf c).toNat = c.toNat :=
  UInt8.toNat_ofNat_of_lt (Nat.lt_trans h (by decide))

theorem charOf_byteOf {c : Char} (h : c.toNat < 128) : charOf (byteOf c) = c := by
  rw [charOf, toNat_byteOf h, Char.ofNat_toNat]

theorem encode_ascii {word : List Char} (h : IsAscii word) : encode word = word.map byteOf := by
  induction word with
  | nil => rfl
  | cons c word ih =>
    obtain ⟨hc, hword⟩ := List.forall_mem_cons.1 h
    have hchar : String.utf8EncodeChar c = [byteOf c] := by
      have hval : c.val.toNat ≤ 0x7f := Nat.le_of_lt_succ hc
      rw [String.utf8EncodeChar, if_pos hval]
      rfl
    have hrest : List.flatMap String.utf8EncodeChar word = word.map byteOf := ih hword
    rw [encode, List.flatMap_cons, hchar, hrest]
    rfl

theorem smallByte_lt_iff (b : UInt8) : (smallByte b).toNat < 128 ↔ b.toNat < 128 := by
  have hall : ∀ n < 256, (smallByte (UInt8.ofNat n)).toNat < 128 ↔ n < 128 := by decide +kernel
  have hbyte := hall b.toNat b.toNat_lt
  rwa [UInt8.ofNat_toNat] at hbyte

/-- The small letter is the same for a byte and for its character. -/
theorem charOf_smallByte {b : UInt8} (h : b.toNat < 128) : charOf (smallByte b) = (charOf b).toLower := by
  have hall : ∀ n < 128, charOf (smallByte (UInt8.ofNat n)) = (charOf (UInt8.ofNat n)).toLower := by
    decide +kernel
  have hbyte := hall b.toNat h
  rwa [UInt8.ofNat_toNat] at hbyte

/-- Bytes that spell an ASCII word up to the case of its letters have its characters up to case. -/
theorem map_charOf_of_spelled {word : List Char} (hascii : IsAscii word) {spelled : List UInt8}
    (h : spelled.map smallByte = (word.map byteOf).map smallByte) :
    (∀ b ∈ spelled, b.toNat < 128) ∧
      (spelled.map charOf).map Char.toLower = word.map Char.toLower := by
  have hsmall : ∀ b ∈ spelled, b.toNat < 128 := by
    intro b hb
    have hmem : smallByte b ∈ (word.map byteOf).map smallByte := h ▸ List.mem_map_of_mem hb
    obtain ⟨_, hword, hsame⟩ := List.mem_map.1 hmem
    obtain ⟨c, hc, rfl⟩ := List.mem_map.1 hword
    rw [← smallByte_lt_iff, ← hsame, smallByte_lt_iff, toNat_byteOf (hascii c hc)]
    exact hascii c hc
  refine ⟨hsmall, ?_⟩
  calc (spelled.map charOf).map Char.toLower
      = (spelled.map smallByte).map charOf := by
        rw [List.map_map, List.map_map]
        exact List.map_congr_left fun b hb => (charOf_smallByte (hsmall b hb)).symm
    _ = ((word.map byteOf).map smallByte).map charOf := by rw [h]
    _ = word.map Char.toLower := by
        rw [List.map_map, List.map_map]
        refine List.map_congr_left fun c hc => ?_
        have hbyte : (byteOf c).toNat < 128 := (toNat_byteOf (hascii c hc)).symm ▸ hascii c hc
        show charOf (smallByte (byteOf c)) = c.toLower
        rw [charOf_smallByte hbyte, charOf_byteOf (hascii c hc)]

/-- **Where a word stands in bytes, it stands in their text.** -/
theorem occursIn_lowerCase_decodeLossy {word : List Char} (hne : word ≠ []) (hascii : IsAscii word)
    {bytes : List UInt8} (h : StandsIn word bytes) :
    occursIn (word.map Char.toLower) (lowerCase (decodeLossy bytes)) = true := by
  obtain ⟨before, behind, hbytes⟩ := h
  obtain ⟨rest, back, rfl, hrest, -⟩ := List.map_eq_append_iff.1 hbytes.symm
  obtain ⟨front, spelled, rfl, -, hspelled⟩ := List.map_eq_append_iff.1 hrest
  rw [encode_ascii hascii] at hspelled
  obtain ⟨hsmall, hlower⟩ := map_charOf_of_spelled hascii hspelled
  have hspelledNe : spelled ≠ [] := by
    rintro rfl
    exact hne (List.map_eq_nil_iff.1 (List.map_eq_nil_iff.1 hspelled.symm))
  obtain ⟨left, right, hdecode⟩ := exists_decodeLossy_append hspelledNe hsmall front back
  have hchars : IsAscii (spelled.map charOf) := by
    intro c hc
    obtain ⟨b, hb, rfl⟩ := List.mem_map.1 hc
    have hall : ∀ n < 128, (Char.ofNat n).toNat < 128 := by decide
    exact hall b.toNat (hsmall b hb)
  rw [occursIn_iff, hdecode, ← hlower]
  exact map_toLower_infix_lowerCase hchars left right

end MetadataSearch.Text
