import Mathlib.Tactic.SplitIfs
import MetadataSearch.Text.Utf8

/-!
# The order of texts by bytes

**Theorem (`encode_lt_encode`).** Texts that ascend by code points ascend by the bytes of their UTF-8
form. So do the names of fields (`Ascend.byBytes`).

Two different characters differ in the byte with which they begin or in a later one of the same
place, and the first such byte decides (`encodeChar_append_lt`), whatever follows the characters.
-/

namespace MetadataSearch.Text

/-- A smaller character has the smaller bytes, whatever follows. -/
theorem encodeChar_append_lt {c d : Char} (h : c < d) (xs ys : List UInt8) :
    String.utf8EncodeChar c ++ xs < String.utf8EncodeChar d ++ ys := by
  have hlt : c.val.toNat < d.val.toNat := h
  have hmax : d.val.toNat < 0x110000 := by
    have := d.valid
    simp only [UInt32.isValidChar, Nat.isValidChar] at this
    omega
  generalize hv : c.val.toNat = v at hlt
  generalize hw : d.val.toNat = w at hlt hmax
  unfold String.utf8EncodeChar
  simp only [hv, hw]
  split_ifs <;>
    simp only [List.cons_append, List.nil_append, List.cons_lt_cons_iff, UInt8.lt_iff_toNat_lt,
      ← UInt8.toNat_inj, UInt8.toNat_ofNat'] <;>
    simp (disch := omega) only [Nat.mod_eq_of_lt] <;> omega

/-- **Ascending texts have ascending bytes.** -/
theorem encode_lt_encode {s t : List Char} (h : s < t) : encode s < encode t := by
  induction h with
  | @nil c t =>
    rw [encode, encode, List.flatMap_nil, List.flatMap_cons]
    cases hbytes : String.utf8EncodeChar c with
    | nil => exact absurd hbytes String.utf8EncodeChar_ne_nil
    | cons b bytes => exact List.nil_lt_cons b _
  | @cons c s t _ ih =>
    rw [encode, encode, List.flatMap_cons, List.flatMap_cons]
    exact List.append_left_lt ih
  | @rel c s d t hcd =>
    rw [encode, encode, List.flatMap_cons, List.flatMap_cons]
    exact encodeChar_append_lt hcd _ _

/-! ## Ascending lists -/

/-- Strictly ascending by code points. -/
def Ascend (texts : List String) : Prop := texts.Pairwise (· < ·)

/-- Strictly ascending by the bytes of UTF-8. -/
def AscendByBytes (texts : List String) : Prop :=
  texts.Pairwise fun s t => encode s.toList < encode t.toList

theorem Ascend.byBytes {texts : List String} (h : Ascend texts) : AscendByBytes texts :=
  h.imp fun hlt => encode_lt_encode hlt

end MetadataSearch.Text
