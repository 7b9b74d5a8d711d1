import MetadataSearch.Proofs.Instant.RoundTrip
import MetadataSearch.Proofs.Query.Lexing
import MetadataSearch.Proofs.Query.Parsing
import MetadataSearch.Proofs.Text.Trimming

/-!
# Queries for a date

**Theorem (`parse_modifiedSince`).** The query built for the written form of an instant is read as one
comparison of the modification date with that instant, without its fraction of a second, if the year
has four digits and no sign. For any other year it is refused, at the call of the time function.

A written instant is a `PlainArgument`: it has no closing parenthesis, which would end the call early,
and neither blanks nor quotes, which the call trims away. So the call reads it as it was written, and
what it makes of it is what `Instant.readIso?_write` says.
-/

namespace MetadataSearch

namespace Query

/-! ## Arguments of calls -/

/-- A call takes the text as it is: nothing in it ends the call, and nothing is trimmed away. -/
def PlainArgument (text : List Char) : Prop :=
  ∀ c ∈ text, c ≠ ')' ∧ Text.isBlank c = false ∧ isQuote c = false

theorem trimQuotes_eq_self {text : List Char} (h : PlainArgument text) : trimQuotes text = text := by
  have hfront : text.dropWhile isQuote = text := Text.dropWhile_eq_self fun c hc => (h c hc).2.2
  have hback : text.reverse.dropWhile isQuote = text.reverse :=
    Text.dropWhile_eq_self fun c hc => (h c (List.mem_reverse.1 hc)).2.2
  rw [trimQuotes, hfront, hback, List.reverse_reverse]

theorem scanArgument_plain {text rest : List Char} (h : PlainArgument text) :
    scanArgument ('(' :: (text ++ ')' :: rest)) = some (some text, rest) := by
  have hinside : ')' ∉ text := fun hmem => (h _ hmem).1 rfl
  rw [scanArgument_closed hinside, Text.trim_eq_self fun c hc => (h c hc).2.1]

/-- What a call of the date function makes of an argument. -/
theorem scanTime_iso (now : Instant) {date : List Char} (rest : List Char) (h : PlainArgument date) :
    scanTime now ("time.iso".toList ++ '(' :: (date ++ ')' :: rest)) =
      match Instant.readIso? date with
      | some t => .ok (.value (.time t), rest)
      | none => .error (.invalidDate (String.ofList date), 0) := by
  have hcall : callTime now "time.iso" (some date) =
      match Instant.readIso? date with
      | some t => .ok t
      | none => .error (.invalidDate (String.ofList date)) := by
    show (match Instant.readIso? (trimQuotes date) with
      | some t => .ok t
      | none => .error (.invalidDate (String.ofList date)) : Except Cause Instant) = _
    rw [trimQuotes_eq_self h]
  rw [scanTime_call rfl rfl (scanArgument_plain h), hcall]
  cases Instant.readIso? date <;> rfl

theorem plainArgument_write (t : Instant) : PlainArgument t.write := by
  intro c hc
  rcases Instant.isWritten_of_mem_write hc with hdigit | hsign
  · obtain ⟨hlow, -⟩ := Char.isDigit_iff_toNat.1 hdigit
    have hne : ∀ d : Char, d.toNat < '0'.toNat → c ≠ d := by
      rintro d hd rfl
      exact absurd hlow (Nat.not_le.2 hd)
    refine ⟨hne ')' (by decide), Text.isBlank_of_isDigit hdigit, ?_⟩
    rw [isQuote, Bool.or_eq_false_iff, beq_eq_false_iff_ne, beq_eq_false_iff_ne]
    exact ⟨hne '"' (by decide), hne '\'' (by decide)⟩
  · simp only [List.mem_cons, List.not_mem_nil, or_false] at hsign
    rcases hsign with rfl | rfl | rfl | rfl | rfl <;> exact ⟨by decide, rfl, rfl⟩

/-! ## The query -/

/-- The query from the call on. -/
def sinceCall (date : List Char) : List Char := '$' :: ("time.iso".toList ++ '(' :: (date ++ [')']))

theorem toList_modifiedSince (date : String) :
    (Predicate.modifiedSince date).text.toList =
      'k' :: ("MDItemContentModificationDate".toList ++
        ' ' :: '>' :: '=' :: ' ' :: sinceCall date.toList) := by
  have hname : Attribute.contentModificationDate.toList =
      'k' :: "MDItemContentModificationDate".toList := rfl
  have hopen : " >= $time.iso(".toList =
      ' ' :: '>' :: '=' :: ' ' :: '$' :: ("time.iso".toList ++ ['(']) := rfl
  have hclose : ")".toList = [')'] := rfl
  simp only [Predicate.modifiedSince, String.toList_append, hname, hopen, hclose, sinceCall,
    List.append_assoc, List.cons_append, List.nil_append]

/-- Where the call stands, in bytes. -/
def callOffset : Nat := 34

theorem offsetAt_sinceCall (date : String) :
    offsetAt (Text.byteSize (Predicate.modifiedSince date).text.toList) (sinceCall date.toList) =
      callOffset := by
  have hfront : (Predicate.modifiedSince date).text.toList =
      "kMDItemContentModificationDate >= ".toList ++ sinceCall date.toList := by
    rw [toList_modifiedSince]
    rfl
  rw [hfront, offsetAt_append]
  rfl

/-- The tokens up to the call. -/
theorem lex_modifiedSince (now : Instant) (date : String) :
    lex now (Predicate.modifiedSince date).text.toList =
      (lexFrom now (Text.byteSize (Predicate.modifiedSince date).text.toList)
        (sinceCall date.toList)).map fun lexemes =>
          ⟨.name Attribute.contentModificationDate, (Predicate.modifiedSince date).text.toList⟩ ::
            ⟨.comparator .ge, '>' :: '=' :: ' ' :: sinceCall date.toList⟩ :: lexemes := by
  have hname : ∀ after, scanToken now 'k' ("MDItemContentModificationDate".toList ++ ' ' :: after) =
      .ok (.name Attribute.contentModificationDate, ' ' :: after) := fun after =>
    scanToken_name (by decide) (List.all_eq_true.1 rfl) rfl
  rw [lex]
  generalize Text.byteSize (Predicate.modifiedSince date).text.toList = size
  rw [toList_modifiedSince, lexFrom_token (by decide) (hname _), lexFrom_blank (by decide),
    lexFrom_token (by decide) rfl, lexFrom_blank (by decide)]
  cases lexFrom now size (sinceCall date.toList) <;> rfl

/-- The query for a written instant compares with what is read of it. -/
theorem parse_modifiedSince_write (now t : Instant) :
    parse now (Predicate.modifiedSince t.format).text =
      (Instant.readIso? t.write).elim (.error ⟨.invalidDate t.format, callOffset⟩) fun read =>
        .ok (.compare ⟨Attribute.contentModificationDate, .ge, .time read⟩) := by
  have hdate : t.format.toList = t.write := String.toList_ofList
  have hscan := scanTime_iso now [] (plainArgument_write t)
  have hoffset := offsetAt_sinceCall t.format
  rw [parse, lex_modifiedSince]
  rw [sinceCall, hdate] at hoffset ⊢
  cases hread : Instant.readIso? t.write with
  | some read =>
    rw [hread] at hscan
    have htoken : scanToken now '$' ("time.iso".toList ++ '(' :: (t.write ++ [')'])) =
        .ok (.value (.time read), []) := hscan
    rw [lexFrom_token (by decide) htoken, lexFrom_nil]
    exact parseTokens_comparison rfl
  | none =>
    rw [hread] at hscan
    have htoken : scanToken now '$' ("time.iso".toList ++ '(' :: (t.write ++ [')'])) =
        .error (.invalidDate t.format, 0) := hscan
    rw [lexFrom_error (by decide) htoken, hoffset]
    rfl

/-- **A query for a written instant compares with that instant, if its year has four digits and no
sign.** -/
theorem parse_modifiedSince (now : Instant) {t : Instant} (ht : t.Civil) :
    parse now (Predicate.modifiedSince t.format).text =
      if 0 ≤ t.year ∧ t.year ≤ 9999 then
        .ok (.compare ⟨Attribute.contentModificationDate, .ge, .time t.withoutFraction⟩)
      else .error ⟨.invalidDate t.format, callOffset⟩ := by
  rw [parse_modifiedSince_write, Instant.readIso?_write ht]
  split <;> rfl

end Query

end MetadataSearch
