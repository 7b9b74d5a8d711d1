import MetadataSearch.Proofs.Query.ModifiedSince
import MetadataSearch.Proofs.Search.FileResults
import MetadataSearch.Proofs.Toolbox.Vetting

/-!
# Recent files

**Theorem (`recentFiles_of_readSince?`).** A date that is accepted makes a query for that date, without
its fraction of a second, if its year in UTC has four digits and no sign. For any other year, the query
that is built is refused by the query language, so the call fails although its arguments were vetted.

Three readers take part: the one of the argument, which also takes signed years and offsets that move
the year; the one of the query language, which takes neither; and between them the written form, which
has a sign for the years that the latter does not take. An accepted date is `Civil`
(`civil_of_readSince?`), which is all that `Query.parse_modifiedSince` needs.
-/

namespace MetadataSearch.Toolbox

variable {box : Toolbox}

/-! ## The date -/

theorem civil_of_readSince? {text : String} {t : Instant} (h : readSince? text = some t) :
    t.Civil := by
  rw [readSince?] at h
  rcases (Option.orElse_eq_some _ _ _).1 h with h | ⟨-, h⟩
  · exact Instant.civil_of_readRfc3339? h
  · exact Instant.civil_of_readDate? h

theorem sinceOf_of_readSince? {arguments : Arguments} {text : String} {t : Instant}
    (htext : arguments.text? "since" = some text) (h : readSince? text = some t) :
    box.sinceOf arguments = .ok t := by
  rw [sinceOf, htext]
  simp only [h]

/-! ## The call -/

theorem call_recentFiles {arguments : Arguments} {scope : Path} {since : Instant}
    (hscope : box.scopeArgument arguments = .ok scope) (hsince : box.sinceOf arguments = .ok since) :
    box.call "recent_files" arguments = box.answer
      (.ok (.find (Predicate.modifiedSince since.format) scope (limitOf arguments))) := by
  have hvet : box.vetRecentFiles arguments =
      .ok (.find (Predicate.modifiedSince since.format) scope (limitOf arguments)) :=
    vetRecentFiles_eq_ok.2 ⟨scope, since, hscope, hsince, rfl⟩
  have hcall : box.call "recent_files" arguments = box.answer (box.vetRecentFiles arguments) := rfl
  rw [hcall, hvet]

section FileEngine

variable {textLimit : Nat} {clock : Instant} {predicate : Predicate}

theorem isError_answer_of_parse {filter : Query.Filter} (scope : Path) (limit : Nat)
    (hengine : box.engine = .ofFiles box.files textLimit clock)
    (hparse : Query.parse clock predicate.text = .ok filter) :
    (box.answer (.ok (.find predicate scope limit))).1.isError = false := by
  rw [answer, perform_find, Search.run_some, hengine,
    Search.run_files (List.cons_ne_nil scope []) hparse]
  rfl

theorem answer_of_parse_error {e : Query.Error} (scope : Path) (limit : Nat)
    (hengine : box.engine = .ofFiles box.files textLimit clock)
    (hparse : Query.parse clock predicate.text = .error e) :
    (box.answer (.ok (.find predicate scope limit))).1 =
      .ofOutcome (.error (.queryFailed (.failed (.invalidQuery e.message)))) := by
  rw [answer, perform_find, hengine,
    Search.run_files_of_error (some limit) (List.cons_ne_nil scope []) hparse]
  rfl

end FileEngine

/-- **Accepted dates and the query language.** The query for an accepted date is understood exactly if
the year has four digits and no sign, and the call succeeds exactly then. -/
theorem recentFiles_of_readSince? {text : String} {t : Instant} (h : readSince? text = some t) :
    (∀ now, Query.parse now (Predicate.modifiedSince t.format).text =
      if 0 ≤ t.year ∧ t.year ≤ 9999 then
        .ok (.compare ⟨Attribute.contentModificationDate, .ge, .time t.withoutFraction⟩)
      else .error ⟨.invalidDate t.format, Query.callOffset⟩) ∧
    ∀ (box : Toolbox) (arguments : Arguments) (scope : Path) (textLimit : Nat) (clock : Instant),
      box.engine = .ofFiles box.files textLimit clock →
      arguments.text? "since" = some text → box.scopeArgument arguments = .ok scope →
      (0 ≤ t.year ∧ t.year ≤ 9999 → (box.call "recent_files" arguments).1.isError = false) ∧
      (¬(0 ≤ t.year ∧ t.year ≤ 9999) → (box.call "recent_files" arguments).1 =
        .ofOutcome (.error (.queryFailed (.failed (.invalidQuery
          (Query.Error.message ⟨.invalidDate t.format, Query.callOffset⟩)))))) := by
  have hparse := fun now => Query.parse_modifiedSince now (civil_of_readSince? h)
  refine ⟨hparse, ?_⟩
  intro box arguments scope textLimit clock hengine htext hscope
  have hclock := hparse clock
  rw [call_recentFiles hscope (sinceOf_of_readSince? htext h)]
  constructor
  · intro hyear
    rw [if_pos hyear] at hclock
    exact isError_answer_of_parse scope (limitOf arguments) hengine hclock
  · intro hyear
    rw [if_neg hyear] at hclock
    exact answer_of_parse_error scope (limitOf arguments) hengine hclock

/-! ## Two dates at an edge -/

def sinceArguments (text : String) : Arguments := ⟨[("scope", .string "/"), ("since", .string text)]⟩

def emptyBox : Toolbox :=
  let files := .empty ⟨⟨⟨0, 0⟩, none⟩, 64⟩
  ⟨.ofFiles files 0 ⟨0, 0⟩, files, .lenient, [], ⟨0, 0⟩⟩

/-- Half a second into a leap second, and a date that its offset moves into the year 10000. -/
theorem recentFiles_of_readSince?_edges :
    (readSince? "2016-12-31T23:59:60.5Z" = some ⟨1483228799, 1500000000⟩ ∧
      (emptyBox.call "recent_files" (sinceArguments "2016-12-31T23:59:60.5Z")).1.isError = false) ∧
    readSince? "9999-12-31T23:59:59-00:01" = some ⟨253402300859, 0⟩ ∧
      (emptyBox.call "recent_files" (sinceArguments "9999-12-31T23:59:59-00:01")).1 =
        ⟨"Query failed: Query execution failed: Invalid query: " ++
          "invalid date '+10000-01-01T00:00:59Z' at offset 34", true⟩ := by
  have hleap : readSince? "2016-12-31T23:59:60.5Z" = some ⟨1483228799, 1500000000⟩ := by
    decide +kernel
  have hlate : readSince? "9999-12-31T23:59:59-00:01" = some ⟨253402300859, 0⟩ := by
    decide +kernel
  have hscope : ∀ text, emptyBox.scopeArgument (sinceArguments text) = .ok [Path.slash] := fun text =>
    Outcome.toOption_eq_some.1 rfl
  obtain ⟨hfound, -⟩ := (recentFiles_of_readSince? hleap).2 emptyBox
    (sinceArguments "2016-12-31T23:59:60.5Z") [Path.slash] 0 ⟨0, 0⟩ rfl rfl (hscope _)
  obtain ⟨-, hfailed⟩ := (recentFiles_of_readSince? hlate).2 emptyBox
    (sinceArguments "9999-12-31T23:59:59-00:01") [Path.slash] 0 ⟨0, 0⟩ rfl rfl (hscope _)
  refine ⟨⟨hleap, hfound (by decide +kernel)⟩, hlate, ?_⟩
  rw [hfailed (by decide +kernel)]
  decide +kernel

end MetadataSearch.Toolbox
