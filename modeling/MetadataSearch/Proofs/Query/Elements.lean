import Mathlib.Data.List.Basic
import MetadataSearch.Proofs.Instant.DateCharacters
import MetadataSearch.Proofs.Numeral.Rounding
import MetadataSearch.Proofs.Query.Compiling
import MetadataSearch.Proofs.Query.Lexing

/-!
# Elements of queries as they are written

An `Element` is a name, a sign, a string, a number or a call of a time function, with everything that
is up to its writer: the kind of quotes and the modifiers of a string, the digits of a number, the
blanks and quotes around a date. `Element.text` is how it is written and `Element.token` what it means.
The arguments of calls are all those that are accepted (`DateArgument.exists_of_readIso?`,
`Count.exists_of_timeOffset`).

**Theorem (`Element.scans`).** From an element that is followed by a blank or by nothing, the lexer takes
exactly its text and makes its token.

The longest token wins, so what follows matters: `!` before `=` would be another sign, a letter behind
a string another modifier. A blank is none of the characters with which a token can go on
(`AtGap.any_eq_false`), and inside strings and calls the lexer looks for one closing character only,
which is escaped or does not occur there.
-/

namespace MetadataSearch.Query

/-! ## Blanks -/

/-- A run of blanks, perhaps an empty one. -/
def Blanks (gap : List Char) : Prop := ∀ c ∈ gap, Text.isBlank c = true

theorem Blanks.not_mem {gap : List Char} (h : Blanks gap) {c : Char} (hc : Text.isBlank c = false) :
    c ∉ gap := fun hmem => by
  rw [h c hmem] at hc
  cases hc

/-- A blank follows, or nothing. -/
def AtGap (rest : List Char) : Prop := ∀ c ∈ rest.head?, Text.isBlank c = true

variable {rest : List Char}

/-- A run of characters of one kind ends at a gap, if no blank is of that kind. -/
theorem AtGap.any_eq_false (h : AtGap rest) {p : Char → Bool}
    (hp : ∀ n ∈ Text.blankCodes, p (Char.ofNat n) = false) : rest.head?.any p = false := by
  cases rest with
  | nil => rfl
  | cons c rest => exact Text.of_isBlank (p := fun c => p c = false) hp (h c rfl)

theorem AtGap.not_cons (h : AtGap rest) {c : Char} (hc : Text.isBlank c = false) (after : List Char) :
    rest ≠ c :: after := by
  rintro rfl
  rw [h c rfl] at hc
  cases hc

theorem isNameChar_of_mem_blankCodes : ∀ n ∈ Text.blankCodes, isNameChar (Char.ofNat n) = false := by
  decide +kernel

theorem isBlank_of_isNameStart {c : Char} (h : isNameStart c = true) : Text.isBlank c = false := by
  have hname : isNameChar c = true := by
    rcases Bool.or_eq_true_iff.1 h with halphabetic | hunderscore
    · rw [isNameChar, Text.isAlphanumeric, halphabetic]
      rfl
    · rw [isNameChar, hunderscore, Bool.or_true]
      rfl
  by_contra hblank
  rw [Bool.not_eq_false] at hblank
  have hnone : isNameChar c = false :=
    Text.of_isBlank (p := fun c => isNameChar c = false) isNameChar_of_mem_blankCodes hblank
  rw [hname] at hnone
  cases hnone

theorem isBlank_of_isQuote {c : Char} (h : isQuote c = true) : Text.isBlank c = false := by
  rw [isQuote, Bool.or_eq_true, beq_iff_eq, beq_iff_eq] at h
  rcases h with rfl | rfl <;> decide

/-- At a gap the lexer takes this token from the front of a text, and stops where the text ends. -/
def Scans (now : Instant) (text : List Char) (t : Token) : Prop :=
  ∃ c more, text = c :: more ∧ Text.isBlank c = false ∧
    ∀ rest, AtGap rest → scanToken now c (more ++ rest) = .ok (t, rest)

namespace Written

variable {now : Instant}

/-! ## Names -/

/-- A name of an attribute. -/
structure Name where
  first : Char
  more : List Char
  isNameStart_first : isNameStart first = true
  isNameChar_more : ∀ c ∈ more, isNameChar c = true

namespace Name

def text (n : Name) : List Char := n.first :: n.more

def token (n : Name) : Token := .name (String.ofList n.text)

theorem scans (n : Name) : Scans now n.text n.token := by
  refine ⟨n.first, n.more, rfl, isBlank_of_isNameStart n.isNameStart_first, fun rest hrest => ?_⟩
  exact scanToken_name n.isNameStart_first n.isNameChar_more
    (hrest.any_eq_false isNameChar_of_mem_blankCodes)

end Name

/-! ## Signs -/

/-- A parenthesis, a logical sign or a comparator. Equality is written in two ways. -/
inductive Sign where
  | openGroup
  | closeGroup
  | and
  | or
  | not
  | singleEquals
  | comparator (op : Comparator)

namespace Sign

def text : Sign → List Char
  | openGroup => ['(']
  | closeGroup => [')']
  | and => ['&', '&']
  | or => ['|', '|']
  | not => ['!']
  | singleEquals => ['=']
  | comparator .eq => ['=', '=']
  | comparator .ne => ['!', '=']
  | comparator .lt => ['<']
  | comparator .le => ['<', '=']
  | comparator .gt => ['>']
  | comparator .ge => ['>', '=']

def token : Sign → Token
  | openGroup => .openGroup
  | closeGroup => .closeGroup
  | and => .and
  | or => .or
  | not => .not
  | singleEquals => .comparator .eq
  | comparator op => .comparator op

theorem scans (s : Sign) : Scans now s.text s.token := by
  have hequals : ∀ {rest}, AtGap rest → ∀ after, rest = '=' :: after → False :=
    fun hrest after => hrest.not_cons (by decide) after
  match s with
  | openGroup | closeGroup | and | or | comparator .eq | comparator .ne | comparator .le
  | comparator .ge => exact ⟨_, _, rfl, by decide, fun rest _ => rfl⟩
  -- The other signs would be longer ones before an equals sign.
  | not => exact ⟨'!', [], rfl, by decide, fun rest hrest => scanToken.eq_6 now rest (hequals hrest)⟩
  | singleEquals =>
    exact ⟨'=', [], rfl, by decide, fun rest hrest => scanToken.eq_8 now rest (hequals hrest)⟩
  | comparator .lt =>
    exact ⟨'<', [], rfl, by decide, fun rest hrest => scanToken.eq_10 now rest (hequals hrest)⟩
  | comparator .gt =>
    exact ⟨'>', [], rfl, by decide, fun rest hrest => scanToken.eq_12 now rest (hequals hrest)⟩

end Sign

/-! ## Strings -/

/-- A string in quotes of either kind, with its modifiers. -/
structure Quoted where
  quote : Char
  content : List Char
  modifiers : List Char
  isQuote_quote : isQuote quote = true
  known_modifiers : ∀ m ∈ modifiers, m ∈ ['c', 'd', 'w']

namespace Quoted

def text (s : Quoted) : List Char :=
  s.quote :: (escapeIn s.quote s.content ++ s.quote :: s.modifiers)

def token (s : Quoted) : Token :=
  .value (.text (.known s.content (s.modifiers.contains 'c') (s.modifiers.contains 'w')))

theorem scans (s : Quoted) : Scans now s.text s.token := by
  have hletters : ['c', 'd', 'w'].all Char.isAlpha = true := rfl
  have halpha : ∀ m ∈ s.modifiers, m.isAlpha = true := fun m hm =>
    List.all_eq_true.1 hletters m (s.known_modifiers m hm)
  have hpattern := TextPattern.ofText_known s.content s.modifiers s.known_modifiers
  have hquote : s.quote = '"' ∨ s.quote = '\'' := by
    simpa only [isQuote, Bool.or_eq_true, beq_iff_eq] using s.isQuote_quote
  have hplain : s.quote ≠ '\\' ∧ Text.isBlank s.quote = false := by
    rcases hquote with h | h <;> rw [h] <;> decide
  refine ⟨s.quote, _, rfl, hplain.2, fun rest hrest => ?_⟩
  have hscan := scanString_escapeIn hplain.1 halpha (hrest.any_eq_false (by decide)) hpattern
  rw [List.append_assoc, List.cons_append]
  rcases hquote with h | h
  all_goals
    rw [h] at hscan ⊢
    exact hscan

end Quoted

/-! ## Numbers -/

/-- Digits, perhaps with a minus before them and with a point and more digits behind them. -/
structure Number where
  negative : Bool
  whole : List Char
  fraction : Option (List Char)
  whole_ne_nil : whole ≠ []
  isDigit_whole : ∀ c ∈ whole, c.isDigit = true
  isDigit_fraction : ∀ c ∈ fraction.getD [], c.isDigit = true

namespace Number

def text (n : Number) : List Char :=
  (if n.negative then ['-'] else []) ++ Numeral.fractionText n.whole n.fraction

/-- The double nearest to the number. -/
def value (n : Number) : Binary64 :=
  .ofRatio n.negative (Numeral.value (n.whole ++ n.fraction.getD []))
    (10 ^ (n.fraction.getD []).length)

def token (n : Number) : Token := .value (.number n.value)

theorem isNumeralChar_of_mem_fractionText (n : Number) :
    ∀ c ∈ Numeral.fractionText n.whole n.fraction, isNumeralChar c = true := by
  have hdigit : ∀ c : Char, c.isDigit = true → isNumeralChar c = true := fun c hc => by
    rw [isNumeralChar, hc, Bool.true_or]
  have hfraction := n.isDigit_fraction
  intro c hc
  cases hn : n.fraction with
  | none =>
    rw [hn] at hc
    exact hdigit c (n.isDigit_whole c hc)
  | some digits =>
    rw [hn] at hc hfraction
    rcases List.mem_append.1 hc with hwhole | hrest
    · exact hdigit c (n.isDigit_whole c hwhole)
    · rcases List.mem_cons.1 hrest with rfl | hdigits
      · rfl
      · exact hdigit c (hfraction c hdigits)

theorem readReal?_text (n : Number) : Numeral.readReal? n.text = some n.value :=
  Numeral.readReal?_fractionText n.negative n.whole_ne_nil n.isDigit_whole n.isDigit_fraction

theorem scans (n : Number) : Scans now n.text n.token := by
  have hread := n.readReal?_text
  have hnumeral := n.isNumeralChar_of_mem_fractionText
  obtain ⟨c, more, hmagnitude, hc⟩ :=
    Numeral.exists_fractionText_eq_cons n.whole_ne_nil n.isDigit_whole n.fraction
  rw [hmagnitude] at hnumeral
  cases hnegative : n.negative with
  | true =>
    have htext : n.text = '-' :: c :: more := by
      rw [text, hnegative, hmagnitude]
      rfl
    rw [htext] at hread
    exact ⟨'-', c :: more, htext, by decide, fun rest hrest =>
      scanToken_number (.inr ⟨rfl, hc⟩) hnumeral (hrest.any_eq_false (by decide)) hread⟩
  | false =>
    have htext : n.text = c :: more := by
      rw [text, hnegative, hmagnitude]
      rfl
    have hmore : ∀ d ∈ more, isNumeralChar d = true := fun d hd =>
      hnumeral d (List.mem_cons_of_mem _ hd)
    rw [htext] at hread
    exact ⟨c, more, htext, Text.isBlank_of_isDigit hc, fun rest hrest =>
      scanToken_number (.inl hc) hmore (hrest.any_eq_false (by decide)) hread⟩

end Number

/-! ## Calls -/

/-- The argument of a call is what stands between its parentheses, trimmed. -/
theorem scanArgument_of_trim {inside argument : List Char} (hinside : ')' ∉ inside)
    (htrim : Text.trim inside = argument) (rest : List Char) :
    scanArgument ('(' :: (inside ++ [')']) ++ rest) = some (some argument, rest) := by
  rw [List.cons_append, List.append_assoc, ← htrim]
  exact scanArgument_closed hinside rest

/-- A call gives the value of its function, if its name and its argument end where they should. -/
theorem scans_call {function : String} {call : List Char} {argument : Option (List Char)} {t : Instant}
    (hfunction : isTimeFunction function = true)
    (hname : ∀ rest, AtGap rest → (call ++ rest).head?.any isNameChar = false)
    (hargument : ∀ rest, AtGap rest → scanArgument (call ++ rest) = some (argument, rest))
    (hvalue : callTime now function argument = .ok t) :
    Scans now ('$' :: (function.toList ++ call)) (.value (.time t)) := by
  refine ⟨'$', _, rfl, by decide, fun rest hrest => ?_⟩
  have hscan : scanTime now (function.toList ++ (call ++ rest)) = .ok (.value (.time t), rest) := by
    rw [scanTime_call hfunction (hname rest hrest) (hargument rest hrest), hvalue]
  rw [List.append_assoc]
  exact hscan

/-- The argument of the date function: a date of an accepted form between any number of quotes, with
blanks around them. Blanks at an end of the date itself are within quotes. -/
structure DateArgument where
  front : List Char
  opening : List Char
  date : List Char
  closing : List Char
  back : List Char
  value : Instant
  blanks_front : Blanks front
  isQuote_opening : ∀ c ∈ opening, isQuote c = true
  readIso?_date : Instant.readIso? date = some value
  isQuote_closing : ∀ c ∈ closing, isQuote c = true
  blanks_back : Blanks back
  head?_date : opening = [] → date.head?.any Text.isBlank = false
  getLast?_date : closing = [] → date.getLast?.any Text.isBlank = false

namespace DateArgument

variable (d : DateArgument)

def quoted : List Char := d.opening ++ (d.date ++ d.closing)

def inside : List Char := d.front ++ (d.quoted ++ d.back)

def text : List Char := '$' :: ("time.iso".toList ++ '(' :: (d.inside ++ [')']))

def token : Token := .value (.time d.value)

theorem date_ne_nil : d.date ≠ [] := by
  intro hnil
  have hread := d.readIso?_date
  rw [hnil] at hread
  cases hread

/-- Neither a quote nor the end of the call stands in a date. -/
theorem plain_of_mem_date {c : Char} (hc : c ∈ d.date) : c ≠ ')' ∧ isQuote c = false := by
  have hcodes : ∀ n ∈ Text.blankCodes, Char.ofNat n ≠ ')' ∧ isQuote (Char.ofNat n) = false := by
    decide
  have hsigns : Instant.dateSigns.all (fun c => c != ')' && !isQuote c) = true := rfl
  rcases Instant.isDateChar_of_readIso? d.readIso?_date c hc with hdigit | hblank | hsign
  · have hne : ∀ d : Char, d.isDigit = false → c ≠ d := fun d => Numeral.ne_of_isDigit hdigit
    refine ⟨hne ')' rfl, ?_⟩
    rw [isQuote, Bool.or_eq_false_iff, beq_eq_false_iff_ne, beq_eq_false_iff_ne]
    exact ⟨hne '"' rfl, hne '\'' rfl⟩
  · exact Text.of_isBlank (p := fun c => c ≠ ')' ∧ isQuote c = false) hcodes hblank
  · simpa using List.all_eq_true.1 hsigns c hsign

theorem not_mem_inside : ')' ∉ d.inside := by
  have hquotes : ∀ {quotes : List Char}, (∀ c ∈ quotes, isQuote c = true) → ')' ∉ quotes :=
    fun h hmem => absurd (h _ hmem) (by decide)
  simp only [inside, quoted, List.mem_append, not_or]
  exact ⟨d.blanks_front.not_mem (by decide), ⟨hquotes d.isQuote_opening,
    fun hmem => (d.plain_of_mem_date hmem).1 rfl, hquotes d.isQuote_closing⟩,
    d.blanks_back.not_mem (by decide)⟩

theorem trimQuotes_quoted : trimQuotes d.quoted = d.date := by
  have hplain : ∀ c ∈ d.date, isQuote c = false := fun c hc => (d.plain_of_mem_date hc).2
  have hfront : (d.date ++ d.closing).head?.any isQuote = false :=
    Text.any_head?_append hplain fun hnil => absurd hnil d.date_ne_nil
  have hback : d.date.reverse.head?.any isQuote = false :=
    Text.any_head? fun c hc => hplain c (List.mem_reverse.1 hc)
  have hclosing : ∀ c ∈ d.closing.reverse, isQuote c = true := fun c hc =>
    d.isQuote_closing c (List.mem_reverse.1 hc)
  rw [trimQuotes, quoted, (Text.takeWhile_append d.isQuote_opening hfront).2, List.reverse_append,
    (Text.takeWhile_append hclosing hback).2, List.reverse_reverse]

theorem trim_inside : Text.trim d.inside = d.quoted := by
  have hopening : ∀ c ∈ d.opening, Text.isBlank c = false := fun c hc =>
    isBlank_of_isQuote (d.isQuote_opening c hc)
  have hclosing : ∀ c ∈ d.closing.reverse, Text.isBlank c = false := fun c hc =>
    isBlank_of_isQuote (d.isQuote_closing c (List.mem_reverse.1 hc))
  rw [inside, Text.trim_blanks_append d.blanks_front, Text.trim_append_blanks d.blanks_back]
  refine Text.trim_of_ends (Text.any_head?_append hopening fun hnil => ?_) ?_
  · rw [List.head?_append_of_ne_nil _ d.date_ne_nil]
    exact d.head?_date hnil
  · rw [quoted, ← List.head?_reverse, List.reverse_append, List.reverse_append, List.append_assoc]
    refine Text.any_head?_append hclosing fun hnil => ?_
    rw [List.head?_append_of_ne_nil _ (by simpa using d.date_ne_nil), List.head?_reverse]
    exact d.getLast?_date (List.reverse_eq_nil_iff.1 hnil)

theorem scans : Scans now d.text d.token := by
  have hread : Instant.readIso? (trimQuotes d.quoted) = some d.value := by
    rw [trimQuotes_quoted]
    exact d.readIso?_date
  exact scans_call rfl (fun _ _ => rfl)
    (fun rest _ => scanArgument_of_trim d.not_mem_inside d.trim_inside rest) (callTime_iso hread)

/-- **Every argument that the date function accepts is of this form.** -/
theorem exists_of_readIso? {argument : List Char} {t : Instant}
    (h : Instant.readIso? (trimQuotes (Text.trim argument)) = some t) :
    ∃ d : DateArgument, d.inside = argument ∧ d.value = t := by
  obtain ⟨front, back, hfront, hback, hinside⟩ := Text.exists_eq_trimmed Text.isBlank argument
  obtain ⟨opening, closing, hopening, hclosing, hquoted⟩ :=
    Text.exists_eq_trimmed isQuote (Text.trim argument)
  obtain ⟨hfirst, hlast⟩ := Text.ends_trim argument
  have hne : trimQuotes (Text.trim argument) ≠ [] := by
    intro hnil
    rw [hnil] at h
    cases h
  have hsplit : Text.trim argument = opening ++ (trimQuotes (Text.trim argument) ++ closing) := hquoted
  have hwhole : front ++ (opening ++ (trimQuotes (Text.trim argument) ++ closing) ++ back) =
      argument := by
    rw [← hsplit]
    exact hinside.symm
  rw [hsplit] at hfirst hlast
  refine ⟨⟨front, opening, _, closing, back, t, hfront, hopening, h, hclosing, hback,
    fun hnil => ?_, fun hnil => ?_⟩, hwhole, rfl⟩
  · rwa [hnil, List.nil_append, List.head?_append_of_ne_nil _ hne] at hfirst
  · rwa [hnil, List.append_nil, List.getLast?_append_of_ne_nil _ hne] at hlast

end DateArgument

/-! ## Counts -/

/-- The argument of a function that counts: none at all, blanks, or a whole number between blanks. -/
inductive Count where
  | absent
  | blank (gap : List Char) (blanks : Blanks gap)
  | given (front numeral back : List Char) (n : Int64) (blanks_front : Blanks front)
    (blanks_back : Blanks back) (readInt64?_numeral : Numeral.readInt64? numeral = some n)

namespace Count

def text : Count → List Char
  | absent => []
  | blank gap _ => '(' :: (gap ++ [')'])
  | given front numeral back .. => '(' :: (front ++ (numeral ++ back) ++ [')'])

/-- Nothing counts as zero. -/
def value : Count → Int64
  | absent => 0
  | blank .. => 0
  | given _ _ _ n .. => n

/-- What the lexer hands to the function. -/
def argument : Count → Option (List Char)
  | absent => none
  | blank .. => some []
  | given _ numeral .. => some numeral

/-- Neither a blank nor the end of the call stands in a whole number. -/
theorem plain_of_isIntegerChar {c : Char} (h : Numeral.IsIntegerChar c) :
    c ≠ ')' ∧ Text.isBlank c = false := by
  rcases h with hdigit | rfl | rfl
  · exact ⟨Numeral.ne_of_isDigit hdigit rfl, Text.isBlank_of_isDigit hdigit⟩
  · decide
  · decide

theorem scanArgument_text (count : Count) {rest : List Char} (hrest : AtGap rest) :
    scanArgument (count.text ++ rest) = some (count.argument, rest) := by
  match count with
  | absent => exact scanArgument.eq_2 rest (hrest.not_cons (by decide))
  | blank gap hgap =>
    have hinside : ')' ∉ gap := hgap.not_mem (by decide)
    have htrim : Text.trim gap = [] := by
      rw [← List.nil_append gap, Text.trim_append_blanks hgap]
      rfl
    exact scanArgument_of_trim hinside htrim rest
  | given front numeral back n hfront hback hread =>
    have hplain : ∀ c ∈ numeral, c ≠ ')' ∧ Text.isBlank c = false := fun c hc =>
      plain_of_isIntegerChar ((Numeral.isIntegerChar_of_readInt64? hread).2 c hc)
    have hinside : ')' ∉ front ++ (numeral ++ back) := by
      simp only [List.mem_append, not_or]
      exact ⟨hfront.not_mem (by decide), fun hmem => (hplain _ hmem).1 rfl,
        hback.not_mem (by decide)⟩
    have htrim : Text.trim (front ++ (numeral ++ back)) = numeral := by
      rw [Text.trim_blanks_append hfront, Text.trim_append_blanks hback,
        Text.trim_eq_self fun c hc => (hplain c hc).2]
    exact scanArgument_of_trim hinside htrim rest

theorem timeOffset_argument (count : Count) : timeOffset count.argument = .ok count.value := by
  match count with
  | absent => rfl
  | blank .. => rfl
  | given front numeral back n hfront hback hread =>
    obtain ⟨c, digits, rfl⟩ :=
      List.exists_cons_of_ne_nil (Numeral.isIntegerChar_of_readInt64? hread).1
    show timeOffset (some (c :: digits)) = .ok n
    simp only [timeOffset, hread]

/-- A call without an argument ends where its name does. -/
theorem any_text_append (count : Count) {rest : List Char} (hrest : AtGap rest) :
    (count.text ++ rest).head?.any isNameChar = false := by
  cases count with
  | absent => exact hrest.any_eq_false isNameChar_of_mem_blankCodes
  | blank => rfl
  | given => rfl

/-- The call of a function that counts, and the instant that it gives. -/
theorem scans (count : Count) {function : String} {t : Instant}
    (hfunction : isTimeFunction function = true)
    (hvalue : callTime now function count.argument = .ok t) :
    Scans now ('$' :: (function.toList ++ count.text)) (.value (.time t)) :=
  scans_call hfunction (fun _ hrest => count.any_text_append hrest)
    (fun _ hrest => count.scanArgument_text hrest) hvalue

/-- **Every argument that is read as a count is of one of these forms.** -/
theorem exists_of_timeOffset {argument : List Char} {n : Int64}
    (h : timeOffset (some (Text.trim argument)) = .ok n) :
    ∃ count : Count, count.text = '(' :: (argument ++ [')']) ∧ count.value = n := by
  obtain ⟨front, back, hfront, hback, hsplit⟩ := Text.exists_eq_trimmed Text.isBlank argument
  have hargument : argument = front ++ (Text.trim argument ++ back) := hsplit
  cases htrim : Text.trim argument with
  | nil =>
    rw [htrim] at h hargument
    obtain rfl := Except.ok.inj h
    have hblanks : Blanks argument := fun c hc => by
      rw [hargument] at hc
      exact (List.mem_append.1 hc).elim (hfront c) (hback c)
    exact ⟨.blank argument hblanks, rfl, rfl⟩
  | cons c digits =>
    rw [htrim] at h hargument
    cases hread : Numeral.readInt64? (c :: digits) with
    | none =>
      simp only [timeOffset, hread] at h
      cases h
    | some m =>
      simp only [timeOffset, hread] at h
      obtain rfl := Except.ok.inj h
      exact ⟨.given front (c :: digits) back m hfront hback hread,
        congrArg (fun inside => '(' :: (inside ++ [')'])) hargument.symm, rfl⟩

end Count

/-! ## Elements -/

/-- An element of a query. What the functions that count give lies in the range of instants. -/
inductive Element (now : Instant) where
  | name (n : Name)
  | sign (s : Sign)
  | string (s : Quoted)
  | number (n : Number)
  | date (d : DateArgument)
  | secondsFromNow (count : Count) (value : Instant)
    (inRange : now.addSeconds? count.value.toInt = some value)
  | daysFromToday (count : Count) (value : Instant)
    (inRange : now.midnight.addSeconds? (count.value.toInt * Instant.secondsPerDay) = some value)

namespace Element

def text : Element now → List Char
  | name n => n.text
  | sign s => s.text
  | string s => s.text
  | number n => n.text
  | date d => d.text
  | secondsFromNow count .. => '$' :: ("time.now".toList ++ count.text)
  | daysFromToday count .. => '$' :: ("time.today".toList ++ count.text)

def token : Element now → Token
  | name n => n.token
  | sign s => s.token
  | string s => s.token
  | number n => n.token
  | date d => d.token
  | secondsFromNow _ value _ => .value (.time value)
  | daysFromToday _ value _ => .value (.time value)

/-- **An element is scanned as the token that it means.** -/
theorem scans (e : Element now) : Scans now e.text e.token := by
  cases e with
  | name n => exact n.scans
  | sign s => exact s.scans
  | string s => exact s.scans
  | number n => exact n.scans
  | date d => exact d.scans
  | secondsFromNow count value inRange =>
    exact count.scans rfl (callTime_now count.timeOffset_argument inRange)
  | daysFromToday count value inRange =>
    exact count.scans rfl (callTime_today count.timeOffset_argument inRange)

end Element

end Written

end MetadataSearch.Query
