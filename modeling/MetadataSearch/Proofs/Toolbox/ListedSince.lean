import MetadataSearch.Proofs.Engine.FileSources
import MetadataSearch.Proofs.Toolbox.FileAnswers
import MetadataSearch.Proofs.Toolbox.RecentFiles

/-!
# Files listed since a date

**Theorem (`listedSince_of_reply`).** A successful answer to a call for recent files lists the visible
files that were not modified before the date, cut to its whole second. So a file that was modified
earlier than the date may be listed, but only one of the same second; for a date without a fraction no
file is.

The date loses its fraction when it is written into the query (`Query.parse_modifiedSince`), and the
dates of files are compared with all their nanoseconds (`FoundFile.eval_modifiedSince`).
-/

namespace MetadataSearch

open MetadataSearch.Path (ofText)

namespace Instant

theorem compare_eq_lt_iff {s t : Instant} :
    s.compare t = .lt ↔ s.seconds < t.seconds ∨ s.seconds = t.seconds ∧ s.nanos < t.nanos := by
  rw [compare, Ordering.then_eq_lt, Std.compare_eq_lt, Std.compare_eq_iff_eq, Std.compare_eq_lt]

/-- What is before an instant but not before its whole second lies within that second. -/
theorem sameSecond_of_compare {s t : Instant} (hwhole : s.compare t.withoutFraction ≠ .lt)
    (h : s.compare t = .lt) :
    s.seconds = t.seconds ∧ t.withoutFraction.nanos ≤ s.nanos ∧ s.nanos < t.nanos := by
  rw [ne_eq, compare_eq_lt_iff, withoutFraction] at hwhole
  rw [compare_eq_lt_iff] at h
  rw [withoutFraction]
  dsimp only at hwhole ⊢
  omega

end Instant

/-- The comparison that a query for a date makes. -/
theorem FoundFile.eval_modifiedSince (limit : Nat) (file : FoundFile) (t : Instant) :
    Query.Filter.eval (file.source limit)
        (.compare ⟨Attribute.contentModificationDate, .ge, .time t⟩) =
      (file.dates.modified.compare t != .lt) := by
  rw [Query.Filter.eval, Query.Comparison.eval, source_modificationDate]
  rfl

namespace Toolbox

variable {box : Toolbox} {textLimit : Nat} {clock : Instant} {arguments : Arguments}

/-- The file can be looked up and was not modified before this instant. -/
def modifiedSince (t : Instant) (file : FoundFile) : Bool :=
  !Path.isTooLong file.path && file.dates.modified.compare t != .lt

/-- **Recent files are not older than the whole second of the date.** -/
theorem listedSince_of_reply {text : String} {t : Instant} (ht : readSince? text = some t)
    (htext : arguments.text? "since" = some text)
    (hengine : box.engine = .ofFiles box.files textLimit clock)
    (hok : (box.call "recent_files" arguments).1.isError = false) :
    ∃ scope files, box.scopeArgument arguments = .ok scope ∧
      box.files.Lists scope (modifiedSince t.withoutFraction) files ∧
      Value.decode (box.call "recent_files" arguments).1.text =
        .ok (.list (((files.take (limitOf arguments)).map FoundFile.object).map .map)) ∧
      ∀ file ∈ files, box.files.node? file.path = some file.node ∧
        (file.dates.modified.compare t = .lt → file.dates.modified.seconds = t.seconds ∧
          t.withoutFraction.nanos ≤ file.dates.modified.nanos ∧ file.dates.modified.nanos < t.nanos) ∧
        (t.withoutFraction = t → file.dates.modified.compare t ≠ .lt) := by
  have hsearch : (Ask.tool "recent_files" arguments).IsSearch := by
    rw [Ask.IsSearch]
    decide
  obtain ⟨predicate, scope, filter, hrequest, hparse, hdecode⟩ :=
    decode_of_reply hengine hsearch hok
  obtain ⟨scope, since, hscope, hsince, hfind⟩ := vetRecentFiles_eq_ok.1 hrequest
  obtain ⟨rfl, rfl, -⟩ := Request.find.inj hfind
  obtain rfl : since = t := Except.ok.inj (hsince.symm.trans (sinceOf_of_readSince? htext ht))
  -- The query was understood, so it is the one for the whole second.
  have hfilter : filter =
      .compare ⟨Attribute.contentModificationDate, .ge, .time since.withoutFraction⟩ := by
    rw [Query.parse_modifiedSince clock (civil_of_readSince? ht)] at hparse
    split at hparse
    case isTrue => exact (Except.ok.inj hparse).symm
    case isFalse => cases hparse
  have htest : FoundFile.answers textLimit filter = modifiedSince since.withoutFraction := by
    funext file
    rw [FoundFile.answers, hfilter, FoundFile.eval_modifiedSince, modifiedSince]
  have hlists := box.files.lists_filesMatching textLimit filter scope
  rw [htest] at hlists
  refine ⟨scope, _, hscope, hlists, hdecode, fun file hfile => ?_⟩
  obtain ⟨⟨names, hshows⟩, hsince⟩ := hlists.mem_iff.1 hfile
  rw [modifiedSince, Bool.and_eq_true, Bool.not_eq_true', bne_iff_ne] at hsince
  obtain ⟨hlong, hwhole⟩ := hsince
  refine ⟨hshows.node?_path hlong, Instant.sameSecond_of_compare hwhole, fun hsame => ?_⟩
  rwa [hsame] at hwhole

/-! ## A date inside a second -/

/-- A file of the first tenth of a second and one of the second before. -/
def newYearFiles : FileTree where
  info := ⟨⟨⟨0, 0⟩, none⟩, 64⟩
  entries :=
    [(ofText "a", .file [97] ⟨⟨1704067200, 100000000⟩, none⟩),
      (ofText "b", .file [98] ⟨⟨1704067199, 999999999⟩, none⟩)]
  workingDirectory := []
  wellFormed := by
    simp only [Node.WellFormed, Node.EntriesWellFormed, Fields.Ascending, Fields.names]
    decide

def newYearBox : Toolbox := ⟨.ofFiles newYearFiles 16 ⟨0, 0⟩, newYearFiles, .strict, [], ⟨0, 0⟩⟩

/-- The file is listed although it was modified four tenths of a second before the date. -/
theorem listedSince_of_reply_newYear :
    readSince? "2024-01-01T00:00:00.5Z" = some ⟨1704067200, 500000000⟩ ∧
      (newYearBox.call "recent_files" (sinceArguments "2024-01-01T00:00:00.5Z")).1.isError = false ∧
      ∃ scope files, newYearBox.scopeArgument (sinceArguments "2024-01-01T00:00:00.5Z") = .ok scope ∧
        newYearBox.files.Lists scope (modifiedSince ⟨1704067200, 0⟩) files ∧
        Value.decode (newYearBox.call "recent_files" (sinceArguments "2024-01-01T00:00:00.5Z")).1.text =
          .ok (.list (((files.take 100).map FoundFile.object).map .map)) ∧
        ⟨ofText "/a", [97], ⟨⟨1704067200, 100000000⟩, none⟩⟩ ∈ files ∧
        Instant.compare ⟨1704067200, 100000000⟩ ⟨1704067200, 500000000⟩ = .lt := by
  have ht : readSince? "2024-01-01T00:00:00.5Z" = some ⟨1704067200, 500000000⟩ := by
    decide +kernel
  have hok : (newYearBox.call "recent_files"
      (sinceArguments "2024-01-01T00:00:00.5Z")).1.isError = false := by
    decide +kernel
  have hengine : newYearBox.engine = .ofFiles newYearBox.files 16 ⟨0, 0⟩ := rfl
  obtain ⟨scope, files, hscope, hlists, hdecode, -⟩ := listedSince_of_reply ht rfl hengine hok
  have hroot : newYearBox.scopeArgument (sinceArguments "2024-01-01T00:00:00.5Z") = .ok (ofText "/") :=
    Outcome.toOption_eq_some.1 (by decide +kernel)
  obtain rfl : scope = ofText "/" := Except.ok.inj (hscope.symm.trans hroot)
  refine ⟨ht, hok, ofText "/", files, hroot, hlists, hdecode, ?_, by decide⟩
  exact hlists.mem_iff.2 ⟨⟨[ofText "a"], newYearFiles.root, rfl, rfl, by decide, rfl⟩, by decide⟩

end Toolbox

end MetadataSearch
