import MetadataSearch.Predicate
import MetadataSearch.Proofs.Instant.Offsets
import MetadataSearch.Proofs.Text.Trimming
import MetadataSearch.Query.Lexer

/-!
# Tokens of written queries

What the lexer makes of a name, a blank and a string that are written one after another. Each lemma
takes one of them from the front of the text and leaves the lexing of the rest.

**Theorem (`scanQuoted?_escapeIn`).** Inside quotes of either kind the lexer takes exactly what was
escaped, and it finds the closing quote where it was written: an escaped quote or backslash is taken
behind its backslash, and nothing else ends a string or starts an escape.
-/

namespace MetadataSearch

namespace Predicate

theorem escape_append (front back : List Char) : escape (front ++ back) = escape front ++ escape back := by
  induction front with
  | nil => rfl
  | cons c front ih =>
    rw [List.cons_append, escape, escape, ih]
    by_cases hspecial : c = '"' ∨ c = '\\'
    · rw [if_pos hspecial, if_pos hspecial]
      rfl
    · rw [if_neg hspecial, if_neg hspecial]
      rfl

end Predicate

/-! ## Sizes -/

theorem Text.byteSize_append (front back : List Char) :
    byteSize (front ++ back) = byteSize front + byteSize back := by
  induction front with
  | nil => simp [byteSize]
  | cons c front ih =>
    simp only [byteSize, List.cons_append, List.foldr_cons] at ih ⊢
    omega

namespace Query

/-- Before a position stands the text of as many bytes as its offset says. -/
theorem offsetAt_append (front text : List Char) :
    offsetAt (Text.byteSize (front ++ text)) text = Text.byteSize front := by
  rw [offsetAt, Text.byteSize_append, Nat.add_sub_cancel]

/-! ## Strings -/

theorem scanQuoted?_escaped (quote d : Char) (after : List Char) :
    scanQuoted? quote ('\\' :: d :: after) =
      (scanQuoted? quote after).map fun (text, tail) => (d :: text, tail) := by
  rw [scanQuoted?.eq_def]
  rfl

theorem scanQuoted?_close {quote : Char} (rest : List Char) (h : quote ≠ '\\') :
    scanQuoted? quote (quote :: rest) = some ([], rest) := by
  rw [scanQuoted?.eq_def]
  dsimp only
  rw [if_neg h, if_pos rfl]

theorem scanQuoted?_plain {quote c : Char} (rest : List Char) (hescape : c ≠ '\\')
    (hquote : c ≠ quote) : scanQuoted? quote (c :: rest) =
      (scanQuoted? quote rest).map fun (text, tail) => (c :: text, tail) := by
  rw [scanQuoted?.eq_def]
  dsimp only
  rw [if_neg hescape, if_neg hquote]

/-- The text inside quotes of this kind: the quote and the backslash are escaped with a backslash. -/
def escapeIn (quote : Char) : List Char → List Char
  | [] => []
  | c :: rest =>
    if c = quote ∨ c = '\\' then '\\' :: c :: escapeIn quote rest else c :: escapeIn quote rest

theorem escapeIn_doubleQuote (text : List Char) : escapeIn '"' text = Predicate.escape text := by
  induction text with
  | nil => rfl
  | cons c text ih => rw [escapeIn, Predicate.escape, ih]

/-- **Quoting undoes escaping.** -/
theorem scanQuoted?_escapeIn {quote : Char} (hquote : quote ≠ '\\') (text rest : List Char) :
    scanQuoted? quote (escapeIn quote text ++ quote :: rest) = some (text, rest) := by
  induction text with
  | nil => exact scanQuoted?_close rest hquote
  | cons c text ih =>
    rw [escapeIn]
    by_cases hspecial : c = quote ∨ c = '\\'
    · rw [if_pos hspecial, List.cons_append, List.cons_append, scanQuoted?_escaped, ih]
      rfl
    · rw [if_neg hspecial, List.cons_append]
      rw [not_or] at hspecial
      rw [scanQuoted?_plain _ hspecial.2 hspecial.1, ih]
      rfl

/-- A string with its modifiers, after its opening quote. -/
theorem scanString_escapeIn {quote : Char} (hquote : quote ≠ '\\') {text modifiers rest : List Char}
    {pattern : TextPattern} (hmodifiers : ∀ m ∈ modifiers, m.isAlpha = true)
    (hrest : rest.head?.any Char.isAlpha = false)
    (hpattern : TextPattern.ofText text modifiers = .ok pattern) :
    scanString quote (escapeIn quote text ++ quote :: (modifiers ++ rest)) =
      .ok (.value (.text pattern), rest) := by
  obtain ⟨htake, hdrop⟩ := Text.takeWhile_append hmodifiers hrest
  rw [scanString, scanQuoted?_escapeIn hquote]
  dsimp only
  rw [htake, hdrop, hpattern]

theorem scanToken_escape {now : Instant} {text modifiers rest : List Char} {pattern : TextPattern}
    (hmodifiers : ∀ m ∈ modifiers, m.isAlpha = true) (hrest : rest.head?.any Char.isAlpha = false)
    (hpattern : TextPattern.ofText text modifiers = .ok pattern) :
    scanToken now '"' (Predicate.escape text ++ '"' :: (modifiers ++ rest)) =
      .ok (.value (.text pattern), rest) := by
  rw [← escapeIn_doubleQuote]
  exact scanString_escapeIn (by decide) hmodifiers hrest hpattern

/-! ## Names -/

theorem isDigit_of_isNameStart {c : Char} (h : isNameStart c = true) : c.isDigit = false := by
  have hascii : ∀ n < 58, (Char.ofNat n).isDigit = true → isNameStart (Char.ofNat n) = false := by
    decide
  cases hdigit : c.isDigit with
  | false => rfl
  | true =>
    have hlt : c.toNat < 58 := Nat.lt_succ_of_le (Char.isDigit_iff_toNat.1 hdigit).2
    have hnot := hascii c.toNat hlt (by rw [Char.ofNat_toNat]; exact hdigit)
    rw [Char.ofNat_toNat, h] at hnot
    cases hnot

theorem scanToken_name {now : Instant} {c : Char} {more rest : List Char}
    (hstart : isNameStart c = true) (hmore : ∀ d ∈ more, isNameChar d = true)
    (hrest : rest.head?.any isNameChar = false) :
    scanToken now c (more ++ rest) = .ok (.name (String.ofList (c :: more)), rest) := by
  obtain ⟨htake, hdrop⟩ := Text.takeWhile_append hmore hrest
  have hminus : (c == '-') = false := by
    rw [beq_eq_false_iff_ne]
    rintro rfl
    exact absurd hstart (by decide)
  unfold scanToken
  split
  -- The last case is that of a character without a token of its own; no other one starts a name.
  case h_16 =>
    simp only [isDigit_of_isNameStart hstart, hminus, hstart, htake, hdrop]
    rfl
  all_goals exact absurd hstart (by decide)

/-! ## Numbers -/

theorem scanToken_number {now : Instant} {c : Char} {more rest : List Char} {x : Binary64}
    (hfirst : c.isDigit = true ∨ c = '-' ∧ more.head?.any Char.isDigit = true)
    (hmore : ∀ d ∈ more, isNumeralChar d = true) (hrest : rest.head?.any isNumeralChar = false)
    (hread : Numeral.readReal? (c :: more) = some x) :
    scanToken now c (more ++ rest) = .ok (.value (.number x), rest) := by
  obtain ⟨htake, hdrop⟩ := Text.takeWhile_append hmore hrest
  have hnumber : scanNumber c (more ++ rest) = .ok (.value (.number x), rest) := by
    rw [scanNumber, htake, hdrop]
    simp only [hread]
  have hstarts : (c.isDigit || (c == '-' && (more ++ rest).head?.any Char.isDigit)) = true := by
    rcases hfirst with hdigit | ⟨rfl, hdigit⟩
    · rw [hdigit, Bool.true_or]
    · cases more with
      | nil => cases hdigit
      | cons d more => exact hdigit
  unfold scanToken
  split
  -- The last case is that of a character without a token of its own; no other one starts a number.
  case h_16 => rw [if_pos hstarts, hnumber]
  all_goals rcases hfirst with h | ⟨h, -⟩ <;> exact absurd h (by decide)

/-! ## Calls -/

/-- An argument ends at the first closing parenthesis. -/
theorem scanArgument_closed {inside : List Char} (h : ')' ∉ inside) (rest : List Char) :
    scanArgument ('(' :: (inside ++ ')' :: rest)) = some (some (Text.trim inside), rest) := by
  have hinside : ∀ c ∈ inside, (c != ')') = true := fun c hc => bne_iff_ne.2 fun heq => h (heq ▸ hc)
  have hclose : (')' :: rest).head?.any (· != ')') = false := rfl
  obtain ⟨htake, hdrop⟩ := Text.takeWhile_append hinside hclose
  rw [scanArgument, hdrop, htake]

theorem isNameChar_of_isTimeFunction {function : String} (h : isTimeFunction function = true) :
    ∀ c ∈ function.toList, isNameChar c = true := by
  have hall : ["time.iso", "time.now", "time.today"].all (fun f => f.toList.all isNameChar) = true :=
    rfl
  exact List.all_eq_true.1 (List.all_eq_true.1 hall function (List.contains_iff_mem.1 h))

/-- A call is the value of its function at its argument. -/
theorem scanTime_call {now : Instant} {function : String} {call rest : List Char}
    {argument : Option (List Char)} (hfunction : isTimeFunction function = true)
    (hcall : call.head?.any isNameChar = false)
    (hargument : scanArgument call = some (argument, rest)) :
    scanTime now (function.toList ++ call) =
      match callTime now function argument with
      | .ok t => .ok (.value (.time t), rest)
      | .error cause => .error (cause, 0) := by
  obtain ⟨htake, hdrop⟩ := Text.takeWhile_append (isNameChar_of_isTimeFunction hfunction) hcall
  rw [scanTime, htake, hdrop, hargument]
  simp only [String.ofList_toList, hfunction]
  rfl

/-- A date is read without the quotes around it. -/
theorem callTime_iso {now t : Instant} {text : List Char}
    (h : Instant.readIso? (trimQuotes text) = some t) :
    callTime now "time.iso" (some text) = .ok t := by
  simp only [callTime, h]

/-- The instant that a function gave, if it gave one. -/
def orOutOfRange (t : Option Instant) : Except Cause Instant := t.elim (.error .timeOutOfRange) .ok

theorem callTime_seconds {now : Instant} {argument : Option (List Char)} {n : Int64}
    (hoffset : timeOffset argument = .ok n) :
    callTime now "time.now" argument = orOutOfRange (now.addSeconds? n.toInt) := by
  simp only [callTime, hoffset, bind, Except.bind]
  cases now.addSeconds? n.toInt <;> rfl

theorem callTime_days {now : Instant} {argument : Option (List Char)} {n : Int64}
    (hoffset : timeOffset argument = .ok n) :
    callTime now "time.today" argument =
      orOutOfRange (now.midnight.addSeconds? (n.toInt * Instant.secondsPerDay)) := by
  simp only [callTime, hoffset, bind, Except.bind, Duration.ofDays?_eq, Instant.addSeconds?]
  cases (Duration.ofSeconds? (n.toInt * Instant.secondsPerDay)).bind now.midnight.add? <;> rfl

theorem callTime_now {now t : Instant} {argument : Option (List Char)} {n : Int64}
    (hoffset : timeOffset argument = .ok n) (h : now.addSeconds? n.toInt = some t) :
    callTime now "time.now" argument = .ok t := by
  rw [callTime_seconds hoffset, h]
  rfl

theorem callTime_today {now t : Instant} {argument : Option (List Char)} {n : Int64}
    (hoffset : timeOffset argument = .ok n)
    (h : now.midnight.addSeconds? (n.toInt * Instant.secondsPerDay) = some t) :
    callTime now "time.today" argument = .ok t := by
  rw [callTime_days hoffset, h]
  rfl

/-! ## Steps of the lexer -/

variable {now : Instant} {size : Nat}

theorem lexFrom_nil : lexFrom now size [] = .ok [] := by
  rw [lexFrom]

theorem lexFrom_blank {c : Char} {rest : List Char} (h : Text.isBlank c = true) :
    lexFrom now size (c :: rest) = lexFrom now size rest := by
  rw [lexFrom, if_pos h]

theorem lexFrom_token {c : Char} {rest after : List Char} {t : Token}
    (hblank : Text.isBlank c = false) (hscan : scanToken now c rest = .ok (t, after)) :
    lexFrom now size (c :: rest) = (lexFrom now size after).map (⟨t, c :: rest⟩ :: ·) := by
  rw [lexFrom, if_neg (by rw [hblank]; decide)]
  split
  case h_1 cause distance h =>
    rw [hscan] at h
    cases h
  case h_2 t' after' h =>
    rw [hscan] at h
    obtain ⟨rfl, rfl⟩ := Prod.mk.inj (Except.ok.inj h)
    rfl

theorem lexFrom_error {c : Char} {rest : List Char} {cause : Cause} {distance : Nat}
    (hblank : Text.isBlank c = false)
    (hscan : scanToken now c rest = .error (cause, distance)) :
    lexFrom now size (c :: rest) = .error ⟨cause, offsetAt size (c :: rest) + distance⟩ := by
  rw [lexFrom, if_neg (by rw [hblank]; decide)]
  split
  case h_1 cause' distance' h =>
    rw [hscan] at h
    obtain ⟨rfl, rfl⟩ := Prod.mk.inj (Except.error.inj h)
    rfl
  case h_2 t' after h =>
    rw [hscan] at h
    cases h

/-! ## Comparisons with a string -/

/-- The text of a comparison for equality with a string. -/
def equalsText (name text modifiers : List Char) : List Char :=
  name ++ ' ' :: '=' :: '=' :: ' ' :: '"' :: (Predicate.escape text ++ '"' :: modifiers)

/-- Its tokens are a name, a comparator and one string. -/
theorem lex_equalsText (now : Instant) {c : Char} {more text modifiers : List Char}
    {pattern : TextPattern} (hblank : Text.isBlank c = false) (hstart : isNameStart c = true)
    (hmore : ∀ d ∈ more, isNameChar d = true) (hmodifiers : ∀ m ∈ modifiers, m.isAlpha = true)
    (hpattern : TextPattern.ofText text modifiers = .ok pattern) :
    ∃ lexemes, lex now (equalsText (c :: more) text modifiers) = .ok lexemes ∧
      lexemes.map Lexeme.token =
        [.name (String.ofList (c :: more)), .comparator .eq, .value (.text pattern)] := by
  have hname : ∀ after, scanToken now c (more ++ ' ' :: after) =
      .ok (.name (String.ofList (c :: more)), ' ' :: after) := fun after =>
    scanToken_name hstart hmore rfl
  have hscan : scanToken now '"' (Predicate.escape text ++ '"' :: modifiers) =
      .ok (.value (.text pattern), []) := by
    have hall : scanToken now '"' (Predicate.escape text ++ '"' :: (modifiers ++ [])) =
        .ok (.value (.text pattern), []) := scanToken_escape hmodifiers rfl hpattern
    rwa [List.append_nil] at hall
  rw [lex]
  generalize Text.byteSize (equalsText (c :: more) text modifiers) = size
  rw [equalsText, List.cons_append, lexFrom_token hblank (hname _), lexFrom_blank (by decide),
    lexFrom_token (by decide) rfl, lexFrom_blank (by decide), lexFrom_token (by decide) hscan,
    lexFrom_nil]
  exact ⟨_, rfl, rfl⟩

end Query

end MetadataSearch
