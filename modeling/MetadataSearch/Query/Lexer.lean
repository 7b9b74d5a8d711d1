import MetadataSearch.Query.Error
import MetadataSearch.Query.Filter
import MetadataSearch.Text.Numeric
import MetadataSearch.Text.Utf8

/-!
# Query tokens

`lex` splits a query into tokens. Blanks between tokens are skipped. The kinds of token are

- names of attributes: a letter or an underscore, then letters, numbers, `_`, `:` and `.`;
- comparators, `&&`, `||`, `!` and parentheses;
- numbers, and strings in single or double quotes, where a backslash takes the next character as it
  is, followed by modifier letters;
- calls of the time functions `$time.iso(DATE)`, `$time.now(SECONDS)` and `$time.today(DAYS)`, which
  are evaluated here against the clock. The last two may lack their argument, which then is zero.

A position is known by what is left of the query, for a token from its first character on, so no
scanner carries one; `offsetAt` turns it into an offset in bytes.
-/

namespace MetadataSearch.Query

inductive Token where
  | name (text : String)
  | comparator (op : Comparator)
  | and
  | or
  | not
  | openGroup
  | closeGroup
  | value (operand : Operand)

/-- A token and what is left of the query from its first character on. -/
structure Lexeme where
  token : Token
  start : List Char

/-- The offset of a position in a query of `size` bytes of which `text` is left there. -/
def offsetAt (size : Nat) (text : List Char) : Nat := size - Text.byteSize text

/-- The outcome of a scanner on a part of a query: a result and what is left, or a cause with its
distance from the start of that part. -/
abbrev Scan (α : Type) := Except (Cause × Nat) (α × List Char)

def isNameStart (c : Char) : Bool := Text.isAlphabetic c || c == '_'

def isNameChar (c : Char) : Bool := Text.isAlphanumeric c || c == '_' || c == ':' || c == '.'

/-! ## Strings -/

/-- The characters of a string up to its closing quote, and what is left after that. -/
def scanQuoted? (quote : Char) : List Char → Option (List Char × List Char)
  | [] => none
  | c :: rest =>
    if c = '\\' then
      match rest with
      | [] => none
      | d :: after => (scanQuoted? quote after).map fun (text, tail) => (d :: text, tail)
    else if c = quote then some ([], rest)
    else (scanQuoted? quote rest).map fun (text, tail) => (c :: text, tail)

def causeOf : PatternFault → Cause
  | .unknownModifier m => .unknownModifier m
  | .invalidWildcard fault => .invalidWildcard fault

/-- A string after its opening quote, with its modifiers. -/
def scanString (quote : Char) (text : List Char) : Scan Token :=
  match scanQuoted? quote text with
  | none => .error (.unterminatedString, 0)
  | some (content, rest) =>
    match TextPattern.ofText content (rest.takeWhile Char.isAlpha) with
    | .error fault => .error (causeOf fault, 0)
    | .ok pattern => .ok (.value (.text pattern), rest.dropWhile Char.isAlpha)

/-! ## Numbers -/

def isNumeralChar (c : Char) : Bool := c.isDigit || c == '.'

/-- A number from its first character on. -/
def scanNumber (first : Char) (rest : List Char) : Scan Token :=
  let text := first :: rest.takeWhile isNumeralChar
  match Numeral.readReal? text with
  | some x => .ok (.value (.number x), rest.dropWhile isNumeralChar)
  | none => .error (.invalidNumber (String.ofList text), 0)

/-! ## Times -/

/-- The argument of a call, trimmed, if a parenthesis opens one. -/
def scanArgument : List Char → Option (Option (List Char) × List Char)
  | '(' :: rest =>
    match rest.dropWhile (· != ')') with
    | _ :: after => some (some (Text.trim (rest.takeWhile (· != ')'))), after)
    | [] => none
  | text => some (none, text)

def isQuote (c : Char) : Bool := c == '"' || c == '\''

/-- The text without the quotes of either kind at its two ends. -/
def trimQuotes (text : List Char) : List Char :=
  ((text.dropWhile isQuote).reverse.dropWhile isQuote).reverse

/-- The number of seconds or days in an argument; zero if there is none. -/
def timeOffset (argument : Option (List Char)) : Except Cause Int64 :=
  match argument with
  | none | some [] => .ok 0
  | some text =>
    match Numeral.readInt64? text with
    | some n => .ok n
    | none => .error (.invalidTimeOffset (String.ofList text))

/-- The value of a time function. -/
def callTime (now : Instant) (function : String) (argument : Option (List Char)) :
    Except Cause Instant :=
  match function with
  | "time.iso" =>
    match argument with
    | none => .error .missingDate
    | some text =>
      match Instant.readIso? (trimQuotes text) with
      | some t => .ok t
      | none => .error (.invalidDate (String.ofList text))
  | "time.now" => do
    let n ← timeOffset argument
    match now.addSeconds? n.toInt with
    | some t => .ok t
    | none => .error .timeOutOfRange
  | "time.today" => do
    let n ← timeOffset argument
    match (Duration.ofDays? n).bind now.midnight.add? with
    | some t => .ok t
    | none => .error .timeOutOfRange
  | other => .error (.unknownTimeFunction other)

/-- The time functions that take an argument. -/
def isTimeFunction (function : String) : Bool :=
  ["time.iso", "time.now", "time.today"].contains function

/-- A call of a time function after its dollar sign. The name is looked at before the argument. -/
def scanTime (now : Instant) (text : List Char) : Scan Token :=
  let name := text.takeWhile isNameChar
  let function := String.ofList name
  if !isTimeFunction function then .error (.unknownTimeFunction function, 0)
  else
    match scanArgument (text.dropWhile isNameChar) with
    | none => .error (.unterminatedCall, 1 + Text.byteSize name)
    | some (argument, rest) =>
      match callTime now function argument with
      | .ok t => .ok (.value (.time t), rest)
      | .error cause => .error (cause, 0)

/-! ## Tokens -/

/-- The token that starts with character `c` and goes on in `rest`. -/
def scanToken (now : Instant) (c : Char) (rest : List Char) : Scan Token :=
  match c, rest with
  | '(', _ => .ok (.openGroup, rest)
  | ')', _ => .ok (.closeGroup, rest)
  | '&', '&' :: after => .ok (.and, after)
  | '|', '|' :: after => .ok (.or, after)
  | '!', '=' :: after => .ok (.comparator .ne, after)
  | '!', _ => .ok (.not, rest)
  | '=', '=' :: after => .ok (.comparator .eq, after)
  | '=', _ => .ok (.comparator .eq, rest)
  | '<', '=' :: after => .ok (.comparator .le, after)
  | '<', _ => .ok (.comparator .lt, rest)
  | '>', '=' :: after => .ok (.comparator .ge, after)
  | '>', _ => .ok (.comparator .gt, rest)
  | '"', _ => scanString '"' rest
  | '\'', _ => scanString '\'' rest
  | '$', _ => scanTime now rest
  | _, _ =>
    if c.isDigit || (c == '-' && (rest.head?.any Char.isDigit)) then scanNumber c rest
    else if isNameStart c then
      .ok (.name (String.ofList (c :: rest.takeWhile isNameChar)), rest.dropWhile isNameChar)
    else .error (.unexpectedCharacter c, 0)

theorem length_lt_of_scanQuoted? {quote : Char} {text content rest : List Char}
    (h : scanQuoted? quote text = some (content, rest)) : rest.length < text.length := by
  fun_induction scanQuoted? quote text generalizing content rest with
  | case1 | case2 => cases h
  | case3 c after ih =>
    obtain ⟨_, hread⟩ := Text.exists_of_map_fst h
    have hafter := ih hread
    simp only [List.length_cons]
    omega
  | case4 =>
    cases h
    exact Nat.lt_succ_self _
  | case5 c after _ _ ih =>
    obtain ⟨_, hread⟩ := Text.exists_of_map_fst h
    exact Nat.lt_succ_of_lt (ih hread)

theorem length_le_of_scanString {quote : Char} {text rest : List Char} {t : Token}
    (h : scanString quote text = .ok (t, rest)) : rest.length ≤ text.length := by
  unfold scanString at h
  split at h
  · simp at h
  · next content after hq =>
    have := length_lt_of_scanQuoted? hq
    have := Text.length_dropWhile_le Char.isAlpha after
    grind

theorem length_le_of_scanNumber {first : Char} {text rest : List Char} {t : Token}
    (h : scanNumber first text = .ok (t, rest)) : rest.length ≤ text.length := by
  have := Text.length_dropWhile_le isNumeralChar text
  unfold scanNumber at h
  grind

theorem length_le_of_scanArgument {text rest : List Char} {argument : Option (List Char)}
    (h : scanArgument text = some (argument, rest)) : rest.length ≤ text.length := by
  unfold scanArgument at h
  split at h
  · next after =>
    have := Text.length_dropWhile_le (· != ')') after
    grind
  · grind

theorem length_le_of_scanTime {now : Instant} {text rest : List Char} {t : Token}
    (h : scanTime now text = .ok (t, rest)) : rest.length ≤ text.length := by
  have := Text.length_dropWhile_le isNameChar text
  unfold scanTime at h
  grind [→ length_le_of_scanArgument]

theorem length_le_of_scanToken {now : Instant} {c : Char} {text rest : List Char} {t : Token}
    (h : scanToken now c text = .ok (t, rest)) : rest.length ≤ text.length := by
  have := Text.length_dropWhile_le isNameChar text
  unfold scanToken at h
  split at h <;> try grind
  · exact length_le_of_scanString h
  · exact length_le_of_scanString h
  · exact length_le_of_scanTime h
  · grind [→ length_le_of_scanNumber]

/-- The tokens of a query of `size` bytes from the point where `text` is left of it. -/
def lexFrom (now : Instant) (size : Nat) (text : List Char) : Except Error (List Lexeme) :=
  match text with
  | [] => .ok []
  | c :: rest =>
    if Text.isBlank c then lexFrom now size rest
    else
      match h : scanToken now c rest with
      | .error (cause, distance) => .error ⟨cause, offsetAt size (c :: rest) + distance⟩
      | .ok (t, after) =>
        have := length_le_of_scanToken h
        (lexFrom now size after).map (⟨t, c :: rest⟩ :: ·)
termination_by text.length

/-- The tokens of a query. -/
def lex (now : Instant) (query : List Char) : Except Error (List Lexeme) :=
  lexFrom now (Text.byteSize query) query

end MetadataSearch.Query
