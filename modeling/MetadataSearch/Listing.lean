import MetadataSearch.RawValue
import MetadataSearch.Text.Occurrence

/-!
# Attribute listings

A listing is text with one attribute per entry, `NAME = VALUE`. A value is

- a string in double quotes, where a backslash escapes the next character (`n` and `t` are a newline
  and a tab);
- a parenthesised list of values with commas or blanks between them, or the marker `(null)`;
- anything else up to the end of the line, in a list also up to a comma or a closing parenthesis. It
  is read as a date, an integer, a double or else a string.

`Listing.read` gives the entries in order. Open lists are kept on a stack, innermost first. An error
carries what is left of the listing where it was found, which tells the line.
-/

namespace MetadataSearch.Listing

inductive Cause where
  | expectedName
  | expectedEquals (name : String)
  | expectedValue
  | unterminatedString
  | unterminatedList
  deriving DecidableEq

def Cause.text : Cause → String
  | .expectedName => "expected attribute name"
  | .expectedEquals name => "expected '=' after " ++ name
  | .expectedValue => "expected value"
  | .unterminatedString => "unterminated string"
  | .unterminatedList => "unterminated list"

structure Error where
  cause : Cause
  line : Nat
  deriving DecidableEq

def Error.message (e : Error) : String :=
  "mdls output line " ++ String.ofList (Numeral.ofNat e.line) ++ ": " ++ e.cause.text

/-- The outcome of a scanner: a result, or a cause, each with what is left of the listing. -/
abbrev Scan (α : Type) := Except (Cause × List Char) (α × List Char)

/-! ## Values without structure -/

/-- What a character after a backslash stands for. -/
def unescape (c : Char) : Char :=
  if c == 'n' then '\n' else if c == 't' then '\t' else c

/-- The characters up to the closing quote, and what is left after it. -/
def readQuoted? : List Char → Option (List Char × List Char)
  | [] => none
  | c :: rest =>
    if c = '"' then some ([], rest)
    else if c = '\\' then
      match rest with
      | [] => none
      | d :: after => (readQuoted? after).map fun (text, tail) => (unescape d :: text, tail)
    else (readQuoted? rest).map fun (text, tail) => (c :: text, tail)

/-- A value written without quotes. -/
def bareValue (text : List Char) : RawValue :=
  match Instant.readOffsetDateTime? text with
  | some t => .date t
  | none =>
    match Numeral.readInt64? text with
    | some n => .integer n
    | none =>
      match Numeral.readReal? text with
      | some x => .real x
      | none => .string (String.ofList text)

/-- Whether a bare value in a list may hold this character. -/
def inListItem (c : Char) : Bool := c != '\n' && c != ',' && c != ')'

/-- The rest of a null marker after its opening parenthesis and blanks, and what is left after it. -/
def afterNull? (text : List Char) : Option (List Char) :=
  List.isPrefixOf? ['n', 'u', 'l', 'l', ')'] text

theorem length_lt_of_readQuoted? {text content rest : List Char}
    (h : readQuoted? text = some (content, rest)) : rest.length < text.length := by
  fun_induction readQuoted? text generalizing content rest with
  | case1 | case3 => cases h
  | case2 after =>
    cases h
    exact Nat.lt_succ_self _
  | case4 _ d after ih =>
    obtain ⟨_, hread⟩ := Text.exists_of_map_fst h
    have hafter := ih hread
    simp only [List.length_cons]
    omega
  | case5 c after _ _ ih =>
    obtain ⟨_, hread⟩ := Text.exists_of_map_fst h
    exact Nat.lt_succ_of_lt (ih hread)

theorem length_lt_of_afterNull? {text rest : List Char} (h : afterNull? text = some rest) :
    rest.length < text.length := by
  have := Text.length_of_isPrefixOf? h
  simp only [List.length_cons, List.length_nil] at this
  omega

/-! ## Lists -/

/-- Reads on in a list with these items so far, the last one first, inside further lists. -/
def readList (items : List RawValue) (outer : List (List RawValue)) (text : List Char) :
    Scan RawValue :=
  match text with
  | [] => .error (.unterminatedList, [])
  | c :: rest =>
    if Text.isBlank c || c == ',' then readList items outer rest
    else if c = ')' then
      match outer with
      | [] => .ok (.array items.reverse, rest)
      | parent :: outer => readList (.array items.reverse :: parent) outer rest
    else if c = '"' then
      match h : readQuoted? rest with
      | none => .error (.unterminatedString, [])
      | some (content, after) =>
        have := length_lt_of_readQuoted? h
        readList (.string (String.ofList content) :: items) outer after
    else if c = '(' then
      have := Text.length_trimLeft_le rest
      match h : afterNull? (Text.trimLeft rest) with
      | some after =>
        have := length_lt_of_afterNull? h
        readList (.unsupported "null" :: items) outer after
      | none => readList [] (items :: outer) rest
    else
      have := Text.length_dropWhile_le inListItem rest
      readList (bareValue (Text.trim (c :: rest.takeWhile inListItem)) :: items) outer
        (rest.dropWhile inListItem)
termination_by text.length

/-! ## Entries -/

def isInlineBlank (c : Char) : Bool := c == ' ' || c == '\t'

/-- The value of an entry. -/
def readValue : List Char → Scan RawValue
  | [] => .error (.expectedValue, [])
  | c :: rest =>
    if c = '"' then
      match readQuoted? rest with
      | none => .error (.unterminatedString, [])
      | some (content, after) => .ok (.string (String.ofList content), after)
    else if c = '(' then
      match afterNull? (Text.trimLeft rest) with
      | some after => .ok (.unsupported "null", after)
      | none => readList [] [] rest
    else
      .ok (bareValue (Text.trim ((c :: rest).takeWhile (· != '\n'))), (c :: rest).dropWhile (· != '\n'))

def isNameChar (c : Char) : Bool := !Text.isBlank c && c != '='

/-- What follows the name of an entry: the sign and the value. -/
def readAssignment (name : String) (text : List Char) : Scan RawValue :=
  match text.dropWhile isInlineBlank with
  | '=' :: rest => readValue (rest.dropWhile isInlineBlank)
  | rest => .error (.expectedEquals name, rest.tail)

theorem length_le_of_readList {items : List RawValue} {outer : List (List RawValue)}
    {text rest : List Char} {v : RawValue} (h : readList items outer text = .ok (v, rest)) :
    rest.length ≤ text.length := by
  fun_induction readList items outer text with
  | case1 | case5 => cases h
  | case2 items outer c after _ ih => exact Nat.le_succ_of_le (ih h)
  | case3 items after =>
    cases h
    exact Nat.le_succ _
  | case4 items after parent outer _ ih =>
    exact Nat.le_succ_of_le (ih (by simpa using h))
  | case6 items outer after content left hquoted hlt _ _ ih =>
    exact Nat.le_succ_of_le (Nat.le_trans (ih h) (Nat.le_of_lt hlt))
  | case7 items outer after htrim left hnull hlt _ _ _ ih =>
    have hleft := ih h
    simp only [List.length_cons]
    omega
  | case8 items outer after _ _ _ _ _ ih => exact Nat.le_succ_of_le (ih h)
  | case9 items outer c after _ _ _ _ hdrop ih => exact Nat.le_succ_of_le (Nat.le_trans (ih h) hdrop)

theorem length_le_of_readValue {text rest : List Char} {v : RawValue}
    (h : readValue text = .ok (v, rest)) : rest.length ≤ text.length := by
  unfold readValue at h
  split at h
  · contradiction
  · next c after =>
    have := Text.length_trimLeft_le after
    have := Text.length_dropWhile_le (· != '\n') (c :: after)
    grind [→ length_lt_of_readQuoted?, → length_lt_of_afterNull?, → length_le_of_readList]

theorem length_le_of_readAssignment {name : String} {text rest : List Char} {v : RawValue}
    (h : readAssignment name text = .ok (v, rest)) : rest.length ≤ text.length := by
  have := Text.length_dropWhile_le isInlineBlank text
  unfold readAssignment at h
  split at h
  · next after _ =>
    have := Text.length_dropWhile_le isInlineBlank after
    have := length_le_of_readValue h
    grind
  · contradiction

/-- The entries from here on. -/
def readEntries (text : List Char) :
    Except (Cause × List Char) (List (String × RawValue)) :=
  match text with
  | [] => .ok []
  | c :: rest =>
    if Text.isBlank c then readEntries rest
    else if c = '=' then .error (.expectedName, c :: rest)
    else
      let name := String.ofList (c :: rest.takeWhile isNameChar)
      match h : readAssignment name (rest.dropWhile isNameChar) with
      | .error e => .error e
      | .ok (v, after) =>
        have := length_le_of_readAssignment h
        have := Text.length_dropWhile_le isNameChar rest
        (readEntries after).map ((name, v) :: ·)
termination_by text.length

/-- The entries of a listing, in order. -/
def read (text : String) : Except Error (List (String × RawValue)) :=
  (readEntries text.toList).mapError fun (cause, left) =>
    ⟨cause, 1 + (text.toList.count '\n' - left.count '\n')⟩

end MetadataSearch.Listing
