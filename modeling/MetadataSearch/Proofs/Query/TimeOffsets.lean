import MetadataSearch.Proofs.Query.Parsing
import MetadataSearch.Proofs.Query.Rendering

/-!
# Comparisons with a time from now or from today

**Theorem (`parse_timeOffset`).** A comparison with `$time.now(n)` compares with the clock moved by `n`
seconds, one with `$time.today(n)` with the midnight before the clock moved by `n` days, for every `n` of 64
bits and every way to write it. An instant outside the range is refused, at the call.

What a call makes of its argument does not depend on what stands before it, and its error is placed at
its dollar sign. So both functions go through one lemma about the text (`parse_counted`), and the rest is
what becomes of the instant (`Instant.addSeconds?_eq`). Midnight is the start of a day counted down from
the clock, also before 1970, and lies in the range with the clock.
-/

namespace MetadataSearch.Query

open Written

variable {now : Instant}

/-! ## The text -/

/-- A comparison with a call, one blank on each side of the sign. -/
def comparisonText (name : Name) (op : Comparator) (call : List Char) : List Char :=
  name.text ++ ' ' :: ((Sign.comparator op).text ++ ' ' :: call)

/-- Where the call stands, in bytes. -/
def comparisonOffset (name : Name) (op : Comparator) : Nat :=
  Text.byteSize (name.text ++ ' ' :: ((Sign.comparator op).text ++ [' ']))

theorem offsetAt_comparisonText (name : Name) (op : Comparator) (call : List Char) :
    offsetAt (Text.byteSize (comparisonText name op call)) call = comparisonOffset name op := by
  have hfront : comparisonText name op call =
      (name.text ++ ' ' :: ((Sign.comparator op).text ++ [' '])) ++ call := by
    simp only [comparisonText, List.append_assoc, List.cons_append, List.nil_append]
  rw [hfront, offsetAt_append, comparisonOffset]

theorem atGap_space (rest : List Char) : AtGap (' ' :: rest) := by
  intro c hc
  obtain rfl := Option.some.inj hc
  rfl

/-- The tokens up to the call. -/
theorem lex_comparisonText (now : Instant) (name : Name) (op : Comparator) (call : List Char) :
    ∃ atName atSign, lex now (comparisonText name op call) =
      (lexFrom now (Text.byteSize (comparisonText name op call)) call).map fun lexemes =>
        ⟨name.token, atName⟩ :: ⟨.comparator op, atSign⟩ :: lexemes := by
  have hblank : Blanks [' '] := List.all_eq_true.1 rfl
  let namePiece : Piece now := ⟨.name name, [' '], hblank⟩
  let signPiece : Piece now := ⟨.sign (.comparator op), [' '], hblank⟩
  have htext : comparisonText name op call = namePiece.text ++ (signPiece.text ++ call) := by
    simp only [comparisonText, Piece.text, namePiece, signPiece, Element.text, List.append_assoc,
      List.cons_append, List.nil_append]
  refine ⟨namePiece.text ++ (signPiece.text ++ call), signPiece.text ++ call, ?_⟩
  rw [lex]
  generalize Text.byteSize (comparisonText name op call) = size
  rw [htext, lexFrom_piece namePiece (atGap_space _), lexFrom_piece signPiece (atGap_space _)]
  cases lexFrom now size call <;> rfl

/-- A comparison with the instant that a function gives, or the refusal of the function. -/
def comparedWith (name : Name) (op : Comparator) (t : Except Cause Instant) : Except Error Filter :=
  match t with
  | .ok t => .ok (.compare ⟨String.ofList name.text, op, .time t⟩)
  | .error cause => .error ⟨cause, comparisonOffset name op⟩

/-- **A comparison with a call means what the call gives.** -/
theorem parse_counted (name : Name) (op : Comparator) (count : Count) {function : String}
    (hfunction : isTimeFunction function = true) :
    parse now (String.ofList (comparisonText name op ('$' :: (function.toList ++ count.text)))) =
      comparedWith name op (callTime now function count.argument) := by
  have hend : AtGap [] := fun c hc => by cases hc
  have hname := count.any_text_append hend
  have hargument := count.scanArgument_text hend
  rw [List.append_nil] at hname hargument
  have hscan : scanTime now (function.toList ++ count.text) = _ :=
    scanTime_call hfunction hname hargument
  have hoffset := offsetAt_comparisonText name op ('$' :: (function.toList ++ count.text))
  obtain ⟨atName, atSign, hlex⟩ :=
    lex_comparisonText now name op ('$' :: (function.toList ++ count.text))
  rw [parse, String.toList_ofList, hlex]
  cases hvalue : callTime now function count.argument with
  | ok t =>
    rw [hvalue] at hscan
    have htoken : scanToken now '$' (function.toList ++ count.text) = .ok (.value (.time t), []) := hscan
    rw [lexFrom_token (by decide) htoken, lexFrom_nil]
    exact parseTokens_comparison rfl
  | error cause =>
    rw [hvalue] at hscan
    have htoken : scanToken now '$' (function.toList ++ count.text) = .error (cause, 0) := hscan
    rw [lexFrom_error (by decide) htoken, hoffset]
    rfl

/-! ## The instant -/

/-- A comparison with an instant of the range. Any other instant is refused. -/
def comparedInRange (name : Name) (op : Comparator) (t : Instant) : Except Error Filter :=
  if t.inRange then .ok (.compare ⟨String.ofList name.text, op, .time t⟩)
  else .error ⟨.timeOutOfRange, comparisonOffset name op⟩

theorem comparedWith_checked? (name : Name) (op : Comparator) (t : Instant) :
    comparedWith name op (orOutOfRange t.checked?) = comparedInRange name op t := by
  rw [Instant.checked?, comparedInRange]
  split <;> rfl

/-- The call of a function with a number. -/
def numberCall (function : String) (numeral : List Char) : List Char :=
  '$' :: (function.toList ++ '(' :: (numeral ++ [')']))

/-- **A comparison with a time from now or from today is exact or refused.** -/
theorem parse_timeOffset (hclock : now.inRange = true) (hleap : now.isLeap = false) (name : Name)
    (op : Comparator) {n : Int64} {numeral : List Char} (hnumeral : Numeral.Spells numeral n.toInt) :
    parse now (String.ofList (comparisonText name op (numberCall "time.now" numeral))) =
        comparedInRange name op (now.later n.toInt) ∧
      parse now (String.ofList (comparisonText name op (numberCall "time.today" numeral))) =
        comparedInRange name op (now.midnight.later (n.toInt * Instant.secondsPerDay)) ∧
      Cause.timeOutOfRange.text = "time offset out of range" := by
  have hnone : Blanks [] := fun c hc => absurd hc List.not_mem_nil
  let count : Count :=
    .given [] numeral [] n hnone hnone (Numeral.readInt64?_of_spells hnumeral)
  have htext : ∀ function : String, numberCall function numeral = '$' :: (function.toList ++ count.text) :=
    fun function => by
      simp only [numberCall, count, Count.text, List.nil_append, List.append_nil]
  have hmidnight : now.midnight.inRange = true := (Instant.inRange_midnight now).trans hclock
  refine ⟨?_, ?_, rfl⟩
  · rw [htext, parse_counted name op count rfl, callTime_seconds count.timeOffset_argument,
      Instant.addSeconds?_eq hclock hleap, comparedWith_checked?]
    rfl
  · rw [htext, parse_counted name op count rfl, callTime_days count.timeOffset_argument,
      Instant.addSeconds?_eq hmidnight (Instant.isLeap_midnight now), comparedWith_checked?]
    rfl

/-- Half a second before 1970. -/
def halfSecondBefore : Instant := ⟨-1, 500000000⟩

/-- The attribute `a`. -/
def shortName : Name := ⟨'a', [], rfl, List.all_eq_true.1 rfl⟩

/-- It is still 1969 then, so `95026237` days lead to the last day of the range and one more day leads
out of it. -/
theorem parse_timeOffset_edges :
    (parse halfSecondBefore "a >= $time.now(95026237)" =
        .ok (.compare ⟨"a", .ge, .time ⟨95026236, 500000000⟩⟩) ∧
      parse halfSecondBefore "a >= $time.today(95026237)" =
        .ok (.compare ⟨"a", .ge, .time ⟨8210266790400, 0⟩⟩)) ∧
    (parse halfSecondBefore "a >= $time.now(+95026238)" =
        .ok (.compare ⟨"a", .ge, .time ⟨95026237, 500000000⟩⟩) ∧
      parse halfSecondBefore "a >= $time.today(+95026238)" = .error ⟨.timeOutOfRange, 5⟩) ∧
    (parse halfSecondBefore "a >= $time.now(-9223372036854775808)" = .error ⟨.timeOutOfRange, 5⟩ ∧
      parse halfSecondBefore "a >= $time.today(-9223372036854775808)" =
        .error ⟨.timeOutOfRange, 5⟩) ∧
    (⟨.timeOutOfRange, 5⟩ : Error).message = "time offset out of range at offset 5" := by
  have hlast : Numeral.Spells "95026237".toList (95026237 : Int64).toInt :=
    .unsigned ⟨by decide, List.all_eq_true.1 rfl⟩
  have hbeyond : Numeral.Spells ('+' :: "95026238".toList) (95026238 : Int64).toInt :=
    .positive ⟨by decide, List.all_eq_true.1 rfl⟩
  have hlowest : Numeral.Spells ('-' :: "9223372036854775808".toList)
      (-9223372036854775808 : Int64).toInt :=
    .negative ⟨by decide, List.all_eq_true.1 rfl⟩
  have hlastDay : halfSecondBefore.midnight.later
      ((95026237 : Int64).toInt * Instant.secondsPerDay) = ⟨8210266790400, 0⟩ := by decide
  have hclock : halfSecondBefore.inRange = true := rfl
  obtain ⟨lastNow, lastToday, -⟩ := parse_timeOffset hclock rfl shortName .ge hlast
  obtain ⟨beyondNow, beyondToday, -⟩ := parse_timeOffset hclock rfl shortName .ge hbeyond
  obtain ⟨lowestNow, lowestToday, -⟩ := parse_timeOffset hclock rfl shortName .ge hlowest
  rw [hlastDay] at lastToday
  exact ⟨⟨lastNow, lastToday⟩, ⟨beyondNow, beyondToday⟩, ⟨lowestNow, lowestToday⟩, rfl⟩

end MetadataSearch.Query
