import MetadataSearch.Instant
import MetadataSearch.Numeral
import MetadataSearch.Text.Blank

/-!
# Instants as text

- `Instant.write` is the RFC 3339 form in UTC with whole seconds. Years outside 0 to 9999 carry a
  sign and at least four digits.
- `Instant.readRfc3339?` reads the RFC 3339 form with any offset; the `T` may be a blank and letters
  may be small. Digits of a fraction past the ninth are dropped.
- `Instant.readDate?`, `Instant.readDateTime?` and `Instant.readOffsetDateTime?` read looser forms:
  blanks may stand before every number, a number may have fewer digits, and a year may carry a sign
  and then have any number of digits.

A reader takes the whole text or gives `none`.
-/

namespace MetadataSearch.Instant

/-! ## Writing -/

def writeYear (year : Int) : List Char :=
  if 0 ≤ year && year ≤ 9999 then Numeral.padded 4 year.toNat
  else (if year < 0 then '-' else '+') :: Numeral.padded 4 year.natAbs

/-- `YYYY-MM-DDTHH:MM:SSZ`. A leap second is written as second 60. -/
def write (t : Instant) : List Char :=
  let date := Date.ofDayNumber t.day
  let second := (t.seconds % secondsPerDay).toNat
  writeYear date.year ++ '-' :: Numeral.padded 2 date.month ++ '-' :: Numeral.padded 2 date.day ++
    'T' :: Numeral.padded 2 (second / 3600) ++ ':' :: Numeral.padded 2 (second / 60 % 60) ++
    ':' :: Numeral.padded 2 (second % 60 + if t.isLeap then 1 else 0) ++ ['Z']

/-- The written form as a string. -/
def format (t : Instant) : String := String.ofList t.write

/-! ## Reading -/

/-- A reader takes a part from the front of a text and leaves the rest. -/
abbrev Reader := StateT (List Char) Option

namespace Reader

/-- A digit string of at least `least` and at most `most` digits, as a number. -/
def number (least most : Nat) : Reader Nat := fun text =>
  let digits := (text.take most).takeWhile Char.isDigit
  if digits.length < least then none
  else some (Numeral.value digits, text.drop digits.length)

/-- One character of a set. -/
def oneOf (allowed : List Char) : Reader Char := fun text =>
  match text with
  | c :: rest => if allowed.contains c then some (c, rest) else none
  | [] => none

/-- Any number of blanks. -/
def blanks : Reader Unit := fun text => some ((), Text.trimLeft text)

/-- The value, if there is one. -/
def given {α : Type} (value : Option α) : Reader α := fun text => value.map (·, text)

/-- The value of a reader that takes the whole text. -/
def whole? {α : Type} (reader : Reader α) (text : List Char) : Option α :=
  match reader text with
  | some (value, []) => some value
  | _ => none

end Reader

open Reader

/-- The instant of a date and a time of day. Second 60 is the leap second after second 59. -/
def ofCivil? (date : Date) (hour minute second nanos : Nat) : Option Instant :=
  if date.isValid && leastYear ≤ date.year && date.year ≤ greatestYear &&
      hour < 24 && minute < 60 && second ≤ 60 then
    let start := date.dayNumber * secondsPerDay + hour * 3600 + minute * 60
    if second == 60 then some ⟨start + 59, nanosPerSecond + nanos⟩
    else some ⟨start + second, nanos⟩
  else none

/-- The UTC instant of a local one at this offset east, in seconds. Offsets of a day or more are
refused. -/
def atOffset? (t : Instant) (offset : Int) : Option Instant :=
  if -secondsPerDay < offset && offset < secondsPerDay then
    checked? ⟨t.seconds - offset, t.nanos⟩
  else none

/-- Nine digits of a fraction of a second: the given ones, filled up with zeros. -/
def fractionNanos (digits : List Char) : Nat :=
  let kept := digits.take 9
  Numeral.value kept * Nat.pow 10 (9 - kept.length)

/-- A point and at least one digit, or nothing. -/
def fraction : Reader Nat := fun text =>
  match text with
  | '.' :: rest =>
    let digits := rest.takeWhile Char.isDigit
    if digits.isEmpty then none else some (fractionNanos digits, rest.dropWhile Char.isDigit)
  | other => some (0, other)

/-- A sign, two digits of hours, the separator, two digits of minutes below 60. -/
def signedOffset (separator : Reader Unit) : Reader Int := do
  let sign ← oneOf ['+', '-', '\u2212']
  let hours ← number 2 2
  separator
  let minutes ← number 2 2
  if minutes < 60 then
    let seconds : Int := hours * 3600 + minutes * 60
    return if sign == '+' then seconds else -seconds
  else given none

/-- The letter of UTC, or a signed offset with one colon. -/
def rfc3339Offset : Reader Int := fun text =>
  match text with
  | 'Z' :: rest => some (0, rest)
  | 'z' :: rest => some (0, rest)
  | _ => signedOffset (do let _ ← oneOf [':']; return ()) text

def rfc3339 : Reader Instant := do
  let year ← number 4 4
  let _ ← oneOf ['-']
  let month ← number 2 2
  let _ ← oneOf ['-']
  let day ← number 2 2
  let _ ← oneOf ['T', 't', ' ']
  let hour ← number 2 2
  let _ ← oneOf [':']
  let minute ← number 2 2
  let _ ← oneOf [':']
  let second ← number 2 2
  let nanos ← fraction
  let offset ← rfc3339Offset
  let t ← given (ofCivil? ⟨year, month, day⟩ hour minute second nanos)
  given (t.atOffset? offset)

def readRfc3339? (text : List Char) : Option Instant := whole? rfc3339 text

/-- Blanks, then up to four digits, or a sign and any number of digits. -/
def looseYear : Reader Int := do
  blanks
  fun text =>
    match text with
    | '-' :: rest => (number 1 rest.length rest).map fun (n, after) => (-(n : Int), after)
    | '+' :: rest => (number 1 rest.length rest).map fun (n, after) => ((n : Int), after)
    | other => (number 1 4 other).map fun (n, after) => ((n : Int), after)

/-- Blanks, then one or two digits. -/
def looseTwo : Reader Nat := do
  blanks
  number 1 2

def looseDate : Reader Date := do
  let year ← looseYear
  let _ ← oneOf ['-']
  let month ← looseTwo
  let _ ← oneOf ['-']
  let day ← looseTwo
  return ⟨year, month, day⟩

/-- Hours, minutes and seconds on a date. -/
def looseTimeOn (date : Date) : Reader Instant := do
  let hour ← looseTwo
  let _ ← oneOf [':']
  let minute ← looseTwo
  let _ ← oneOf [':']
  let second ← looseTwo
  given (ofCivil? date hour minute second 0)

/-- A date, read as its midnight in UTC. -/
def readDate? (text : List Char) : Option Instant :=
  (whole? looseDate text).bind fun date => ofCivil? date 0 0 0 0

/-- A date, a `T` and a time of day, in UTC. -/
def readDateTime? (text : List Char) : Option Instant :=
  whole? (do
    let date ← looseDate
    let _ ← oneOf ['T']
    looseTimeOn date) text

/-- Any number of colons and blanks. -/
def colonsOrBlanks : Reader Unit := fun text =>
  some ((), text.dropWhile fun c => c == ':' || Text.isBlank c)

/-- A date, a time of day and a signed offset, with any number of blanks between them. -/
def readOffsetDateTime? (text : List Char) : Option Instant :=
  whole? (do
    let date ← looseDate
    blanks
    let t ← looseTimeOn date
    blanks
    let offset ← signedOffset colonsOrBlanks
    given (t.atOffset? offset)) text

/-- The forms of a date in a query: RFC 3339, a date with a time of day in UTC, or a bare date. -/
def readIso? (text : List Char) : Option Instant :=
  (readRfc3339? text).orElse fun _ => (readDateTime? text).orElse fun _ => readDate? text

end MetadataSearch.Instant
