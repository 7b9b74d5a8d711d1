import MetadataSearch.Json
import MetadataSearch.Text.Blank
import MetadataSearch.Text.Occurrence

/-!
# JSON tokens

`Json.token?` takes the token at the front of a JSON text. A token is a sign, a string, or a scalar
that is not a string.

A number without fraction and exponent that fits a signed 64-bit integer is an integer, except
`-0`. Every other number is a double: as many leading digits as fit 64 bits make a whole number, the
digits left out and the exponent make a power of ten, and `Binary64.scaled?` joins the two. A number
too large for a double is no token.
-/

namespace MetadataSearch.Json

inductive Token where
  | openArray
  | closeArray
  | openObject
  | closeObject
  | comma
  | colon
  | string (value : String)
  | scalar (value : Json)

/-! ## Strings -/

/-- The value of a hexadecimal digit. -/
def hexValue? (c : Char) : Option Nat :=
  if c.isDigit then some (c.toNat - '0'.toNat)
  else if 'a' ≤ c ∧ c ≤ 'f' then some (c.toNat - 'a'.toNat + 10)
  else if 'A' ≤ c ∧ c ≤ 'F' then some (c.toNat - 'A'.toNat + 10)
  else none

/-- The value of four hexadecimal digits. -/
def hexQuad? (a b c d : Char) : Option Nat := do
  return (((← hexValue? a) * 16 + (← hexValue? b)) * 16 + (← hexValue? c)) * 16 + (← hexValue? d)

/-- What stands after a backslash for a character, other than `u`. -/
def unescape? : Char → Option Char
  | '"' => some '"'
  | '\\' => some '\\'
  | '/' => some '/'
  | 'b' => some '\x08'
  | 'f' => some '\x0c'
  | 'n' => some '\n'
  | 'r' => some '\r'
  | 't' => some '\t'
  | _ => none

def isHighSurrogate (n : Nat) : Bool := 0xD800 ≤ n && n < 0xDC00

def isLowSurrogate (n : Nat) : Bool := 0xDC00 ≤ n && n < 0xE000

/-- The code point of a surrogate pair. -/
def joinSurrogates (high low : Nat) : Nat := 0x10000 + (high - 0xD800) * 0x400 + (low - 0xDC00)

/-- The characters up to the closing quote, and the rest after it. -/
def readChars? : List Char → Option (List Char × List Char)
  | [] => none
  | c :: rest =>
    if c = '"' then some ([], rest)
    else if c = '\\' then
      match rest with
      | 'u' :: p :: q :: r :: s :: after =>
        match hexQuad? p q r s with
        | none => none
        | some n =>
          if isHighSurrogate n then
            match after with
            | '\\' :: 'u' :: p' :: q' :: r' :: s' :: last =>
              match hexQuad? p' q' r' s' with
              | none => none
              | some m =>
                if isLowSurrogate m then
                  (readChars? last).map fun (cs, tail) =>
                    (Char.ofNat (joinSurrogates n m) :: cs, tail)
                else none
            | _ => none
          else if isLowSurrogate n then none
          else (readChars? after).map fun (cs, tail) => (Char.ofNat n :: cs, tail)
      | e :: after =>
        match unescape? e with
        | none => none
        | some ch => (readChars? after).map fun (cs, tail) => (ch :: cs, tail)
      | [] => none
    else if c.toNat < 0x20 then none
    else (readChars? rest).map fun (cs, tail) => (c :: cs, tail)

/-! ## Numbers -/

/-- Reads digits onto a number while it fits 64 bits, and counts the digits that are left. -/
def absorb (n : Nat) : List Char → Nat × Nat
  | [] => (n, 0)
  | d :: digits =>
    let next := n * 10 + (d.toNat - '0'.toNat)
    if next < UInt64.size then absorb next digits else (n, digits.length + 1)

/-- A whole number from its digits. -/
def wholeNumber? (negative : Bool) (digits : List Char) : Option Json :=
  let n := Numeral.value digits
  if n < UInt64.size then
    if negative && n == 0 then some (.real (Binary64.ofRatio true 0 1))
    else
      match int64? (if negative then -(n : Int) else n) with
      | some i => some (.integer i)
      | none => some (.real (Binary64.ofRatio negative n 1))
  else
    let (kept, left) := absorb 0 digits
    (Binary64.scaled? negative kept left).map .real

/-- A number with a fraction or an exponent. -/
def realNumber? (negative : Bool) (digits fraction : List Char) (exponent : Int) : Option Json :=
  let (whole, left) := absorb 0 digits
  let (kept, dropped) := absorb whole fraction
  let shift : Int := left - (fraction.length - dropped : Nat)
  (Binary64.scaled? negative kept (shift + exponent)).map .real

/-- Digits, of which a leading zero is the only one. -/
def readDigits? (text : List Char) : Option (List Char × List Char) :=
  let digits := text.takeWhile Char.isDigit
  let rest := text.dropWhile Char.isDigit
  match digits with
  | [] => none
  | '0' :: _ :: _ => none
  | digits => some (digits, rest)

/-- A point and at least one digit, or nothing. -/
def readFraction? : List Char → Option (List Char × List Char)
  | '.' :: rest =>
    if (rest.takeWhile Char.isDigit).isEmpty then none
    else some (rest.takeWhile Char.isDigit, rest.dropWhile Char.isDigit)
  | rest => some ([], rest)

/-- An `e`, an optional sign and at least one digit; `none` inside if there is no `e`. -/
def readExponent? : List Char → Option (Option Int × List Char)
  | [] => some (none, [])
  | c :: rest =>
    if c == 'e' || c == 'E' then
      let (negative, rest) := match rest with
        | '-' :: after => (true, after)
        | '+' :: after => (false, after)
        | after => (false, after)
      let digits := rest.takeWhile Char.isDigit
      if digits.isEmpty then none
      else
        let n : Int := Numeral.value digits
        some (some (if negative then -n else n), rest.dropWhile Char.isDigit)
    else some (none, c :: rest)

/-- The number made of these parts. -/
def number? (negative : Bool) (digits fraction : List Char) (exponent : Option Int) : Option Json :=
  if fraction.isEmpty && exponent.isNone then wholeNumber? negative digits
  else realNumber? negative digits fraction (exponent.getD 0)

/-- A number without its sign. -/
def readMagnitude? (negative : Bool) (text : List Char) : Option (Json × List Char) :=
  (readDigits? text).bind fun (digits, rest) =>
  (readFraction? rest).bind fun (fraction, rest) =>
  (readExponent? rest).bind fun (exponent, rest) =>
  (number? negative digits fraction exponent).map (·, rest)

/-! ## Tokens -/

/-- The blanks of JSON. -/
def isSpace (c : Char) : Bool := c == ' ' || c == '\n' || c == '\t' || c == '\r'

/-- The token that starts with character `c` and goes on in `rest`. -/
def token? (c : Char) (rest : List Char) : Option (Token × List Char) :=
  match c with
  | '[' => some (.openArray, rest)
  | ']' => some (.closeArray, rest)
  | '\x7b' => some (.openObject, rest)
  | '\x7d' => some (.closeObject, rest)
  | ',' => some (.comma, rest)
  | ':' => some (.colon, rest)
  | '"' => (readChars? rest).map fun (cs, after) => (.string (String.ofList cs), after)
  | 'n' => (List.isPrefixOf? ['u', 'l', 'l'] rest).map (.scalar .null, ·)
  | 't' => (List.isPrefixOf? ['r', 'u', 'e'] rest).map (.scalar (.bool true), ·)
  | 'f' => (List.isPrefixOf? ['a', 'l', 's', 'e'] rest).map (.scalar (.bool false), ·)
  | '-' => (readMagnitude? true rest).map fun (j, after) => (.scalar j, after)
  | c => (readMagnitude? false (c :: rest)).map fun (j, after) => (.scalar j, after)

/-! ## Every token takes a character -/

theorem length_lt_of_readChars? {text cs rest : List Char} (h : readChars? text = some (cs, rest)) :
    rest.length < text.length := by
  fun_induction readChars? text generalizing cs rest with
  | case1 | case3 | case4 | case6 | case7 | case8 | case10 | case12 | case13 => cases h
  | case2 after =>
    cases h
    exact Nat.lt_succ_self _
  | case5 p q r s _ _ _ p' q' r' s' last _ _ _ _ ih =>
    obtain ⟨_, hread⟩ := Text.exists_of_map_fst h
    have hlast := ih hread
    simp only [List.length_cons]
    omega
  | case9 p q r s after _ _ _ _ _ ih =>
    obtain ⟨_, hread⟩ := Text.exists_of_map_fst h
    have hafter := ih hread
    simp only [List.length_cons]
    omega
  | case11 e after _ _ _ _ ih =>
    obtain ⟨_, hread⟩ := Text.exists_of_map_fst h
    have hafter := ih hread
    simp only [List.length_cons]
    omega
  | case14 c after _ _ _ ih =>
    obtain ⟨_, hread⟩ := Text.exists_of_map_fst h
    exact Nat.lt_succ_of_lt (ih hread)

theorem length_lt_of_readDigits? {text digits rest : List Char}
    (h : readDigits? text = some (digits, rest)) : rest.length < text.length := by
  have split := congrArg List.length (List.takeWhile_append_dropWhile (p := Char.isDigit) (l := text))
  rw [List.length_append] at split
  simp only [readDigits?] at h
  split at h
  · simp at h
  · simp at h
  · next nonempty _ =>
    obtain ⟨-, rfl⟩ := by simpa using h
    have := List.length_pos_iff.2 nonempty
    omega

theorem length_le_of_readFraction? {text digits rest : List Char}
    (h : readFraction? text = some (digits, rest)) : rest.length ≤ text.length := by
  unfold readFraction? at h
  split at h
  · next after =>
    have := Text.length_dropWhile_le Char.isDigit after
    grind
  · grind

theorem length_le_of_readExponent? {text rest : List Char} {exponent : Option Int}
    (h : readExponent? text = some (exponent, rest)) : rest.length ≤ text.length := by
  have one := Text.length_dropWhile_le Char.isDigit text.tail
  have two := Text.length_dropWhile_le Char.isDigit text.tail.tail
  simp only [readExponent?] at h
  grind

theorem length_lt_of_readMagnitude? {negative : Bool} {text rest : List Char} {j : Json}
    (h : readMagnitude? negative text = some (j, rest)) : rest.length < text.length := by
  simp only [readMagnitude?, Option.bind_eq_some_iff, Option.map_eq_some_iff, Prod.exists,
    Prod.mk.injEq] at h
  obtain ⟨digits, rest₁, h₁, fraction, rest₂, h₂, exponent, rest₃, h₃, number, -, -, rfl⟩ := h
  have := length_lt_of_readDigits? h₁
  have := length_le_of_readFraction? h₂
  have := length_le_of_readExponent? h₃
  omega

theorem length_le_of_isPrefixOf? {word text rest : List Char}
    (h : List.isPrefixOf? word text = some rest) : rest.length ≤ text.length := by
  have := Text.length_of_isPrefixOf? h
  omega

theorem length_le_of_token? {c : Char} {rest after : List Char} {t : Token}
    (h : token? c rest = some (t, after)) : after.length ≤ rest.length := by
  unfold token? at h
  split at h <;> simp only [Option.map_eq_some_iff, Prod.exists, Option.some.injEq, Prod.mk.injEq]
    at h
  all_goals grind [→ length_lt_of_readChars?, → length_lt_of_readMagnitude?,
    → length_le_of_isPrefixOf?]

end MetadataSearch.Json
