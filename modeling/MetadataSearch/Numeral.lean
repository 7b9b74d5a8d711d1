import MetadataSearch.Decimal

/-!
# Numerals

Numbers as decimal text, over lists of characters. Digits are ASCII digits throughout.

- `Numeral.ofNat`, `Numeral.ofInt`, `Numeral.padded` write whole numbers.
- `Numeral.readInt64?`, `Numeral.readSize?` read whole numbers of 64 bits, signed and unsigned;
  a text that does not fit is refused.
- `Numeral.readReal?` reads a decimal fraction with an optional exponent, or the name of an infinity
  or of NaN, as the nearest double.
-/

namespace MetadataSearch

/-- The 64-bit integer of this value, if there is one. -/
def int64? (n : Int) : Option Int64 :=
  if Int64.minValue.toInt ≤ n ∧ n ≤ Int64.maxValue.toInt then some (Int64.ofInt n) else none

namespace Numeral

def ofNat (n : Nat) : List Char := Nat.toDigits 10 n

def ofInt (n : Int) : List Char :=
  if n < 0 then '-' :: ofNat n.natAbs else ofNat n.natAbs

/-- At least `width` digits, filled with zeros on the left. -/
def padded (width n : Nat) : List Char :=
  let digits := ofNat n
  List.replicate (width - digits.length) '0' ++ digits

/-- The value of a list of digits. -/
def value (digits : List Char) : Nat := Nat.ofDigitChars 10 digits 0

/-- One or more digits and nothing else. -/
def readNat? (text : List Char) : Option Nat :=
  if text.isEmpty || !text.all Char.isDigit then none else some (value text)

/-- Digits with an optional sign. -/
def readInt? : List Char → Option Int
  | '+' :: text => (readNat? text).map fun n => (n : Int)
  | '-' :: text => (readNat? text).map fun n => -(n : Int)
  | text => (readNat? text).map fun n => (n : Int)

def readInt64? (text : List Char) : Option Int64 :=
  (readInt? text).bind int64?

/-- An unsigned 64-bit count; a plus sign is allowed. -/
def readSize? (text : List Char) : Option UInt64 :=
  let digits := match text with
    | '+' :: rest => rest
    | other => other
  (readNat? digits).bind fun n => if n < UInt64.size then some (UInt64.ofNat n) else none

/-- An exponent part: nothing, or an `e` and a signed number. -/
def readExponent? : List Char → Option Int
  | [] => some 0
  | c :: text => if c == 'e' || c == 'E' then readInt? text else none

/-- Digits with at most one point among them, then an exponent part; at least one digit stands
before the exponent. -/
def readMagnitude? (negative : Bool) (text : List Char) : Option Binary64 :=
  let whole := text.takeWhile Char.isDigit
  let (fraction, rest) := match text.dropWhile Char.isDigit with
    | '.' :: after => (after.takeWhile Char.isDigit, after.dropWhile Char.isDigit)
    | after => ([], after)
  if whole.isEmpty && fraction.isEmpty then none
  else (readExponent? rest).map fun e =>
    Binary64.ofDecimal negative ⟨value (whole ++ fraction), e - fraction.length⟩

/-- The names that stand for doubles without a decimal form, in any letter case. -/
def readName? (negative : Bool) (text : List Char) : Option Binary64 :=
  match String.ofList (text.map Char.toLower) with
  | "inf" | "infinity" => some (.infinite negative)
  | "nan" => some .nan
  | _ => none

/-- A decimal fraction or a name, with an optional sign. -/
def readReal? (text : List Char) : Option Binary64 :=
  let (negative, magnitude) := match text with
    | '-' :: rest => (true, rest)
    | '+' :: rest => (false, rest)
    | other => (false, other)
  (readMagnitude? negative magnitude).orElse fun _ => readName? negative magnitude

end Numeral

end MetadataSearch
