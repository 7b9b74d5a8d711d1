import MetadataSearch.Proofs.Engine.FileSearch
import MetadataSearch.Proofs.Tool.AnswerText
import MetadataSearch.Proofs.Toolbox.Limits

/-!
# Answers about files

**Theorem (`decode_of_reply`).** Over the file engine, a search that succeeds has made a query that is
read as a filter, and its answer has one object for each of the first files that the filter selects in
the scope, as many as the limit allows.

The converse is `reply_of_find`: a request for a query that is read as a filter is answered with these
files. So whether a search succeeds is decided before any file is looked at.
-/

namespace MetadataSearch

/-- The object of a found file as a client reads it. -/
def FoundFile.object (file : FoundFile) : Fields Value :=
  Value.entriesDatesAsText (Answer.withPath file.result)

/-- A member of the object is the path or an attribute of the file. -/
theorem FoundFile.find?_object (file : FoundFile) (name : String) :
    file.object.find? name = if Answer.pathName = name then some (.text file.path.text)
      else ((file.item.get? name).bind RawValue.classify?).map Value.datesAsText := by
  rw [object, Value.find?_entriesDatesAsText, Answer.withPath, Fields.find?_insert]
  split
  · rfl
  · rw [attributes_result, Item.find?_attributes (Item.names_nodup_ofNode file.path file.node), item]

theorem FoundFile.find?_object_path (file : FoundFile) :
    file.object.find? Attribute.path = some (.text file.path.text) := by
  rw [find?_object, if_neg (by decide), item, Item.get?_path_ofNode]
  rfl

/-- Each found file stands in an answer as its object. -/
theorem Answer.decode_files (files : List FoundFile) :
    Value.decode (ofResults (files.map FoundFile.result)) =
      .ok (.list ((files.map FoundFile.object).map .map)) := by
  have hplain : ∀ result ∈ files.map FoundFile.result, result.attributes.Plain := by
    intro result hresult
    obtain ⟨file, -, rfl⟩ := List.mem_map.1 hresult
    exact file.plain_result
  rw [decode_ofResults hplain, List.map_map, List.map_map]
  rfl

namespace Toolbox

variable {box : Toolbox} {textLimit : Nat} {clock : Instant} {ask : Ask}

/-- A query that is read as a filter is answered with the files that it selects. -/
theorem reply_of_find {predicate : Predicate} {scope : Path} {limit : Nat} {filter : Query.Filter}
    (hengine : box.engine = .ofFiles box.files textLimit clock)
    (hrequest : box.requestOf ask = .ok (.find predicate scope limit))
    (hparse : Query.parse clock predicate.text = .ok filter) :
    (box.reply ask).1 = ⟨Answer.ofResults
      (((box.files.filesMatching textLimit filter [scope]).take limit).map FoundFile.result), false⟩ := by
  rw [reply_eq, hrequest, answer, perform_find, Search.run_some, hengine,
    Search.run_files (List.cons_ne_nil scope []) hparse, List.map_take]
  show Answer.mk (Answer.ofResults (Limit.keep limit (List.take limit _))) false = _
  rw [Limit.keep, List.take_take, Nat.min_self]

/-- The answer to a request lists the files that its filter selects. -/
theorem decode_of_find {predicate : Predicate} {scope : Path} {limit : Nat} {files : List FoundFile}
    (hengine : box.engine = .ofFiles box.files textLimit clock)
    (hrequest : box.requestOf ask = .ok (.find predicate scope limit))
    (hfiles : (Query.parse clock predicate.text).toOption.map (fun filter =>
      (box.files.filesMatching textLimit filter [scope]).take limit) = some files) :
    Value.decode (box.reply ask).1.text = .ok (.list ((files.map FoundFile.object).map .map)) := by
  obtain ⟨filter, hfilter, rfl⟩ := Option.map_eq_some_iff.1 hfiles
  rw [reply_of_find hengine hrequest (Outcome.toOption_eq_some.1 hfilter), Answer.decode_files]

/-- A search that succeeds is for a query that is read as a filter. -/
theorem exists_filter_of_reply (hengine : box.engine = .ofFiles box.files textLimit clock)
    (hsearch : ask.IsSearch) (hok : (box.reply ask).1.isError = false) :
    ∃ predicate scope filter,
      box.requestOf ask = .ok (.find predicate scope (Limit.ofRequest ask.limit?)) ∧
        Query.parse clock predicate.text = .ok filter := by
  obtain ⟨request, text, hrequest, hperform, -⟩ := exists_request_of_reply hok
  obtain ⟨predicate, scope, rfl⟩ := find_of_requestOf hsearch hrequest
  refine ⟨predicate, scope, ?_⟩
  cases hparse : Query.parse clock predicate.text with
  | ok filter => exact ⟨filter, hrequest, rfl⟩
  | error e =>
    obtain ⟨results, hrun, -⟩ := text_of_perform_find hperform
    rw [hengine, Search.run_files_of_error none (List.cons_ne_nil scope []) hparse] at hrun
    cases hrun

/-- **A search is answered with the first files that its filter selects.** -/
theorem decode_of_reply (hengine : box.engine = .ofFiles box.files textLimit clock)
    (hsearch : ask.IsSearch) (hok : (box.reply ask).1.isError = false) :
    ∃ predicate scope filter,
      box.requestOf ask = .ok (.find predicate scope (Limit.ofRequest ask.limit?)) ∧
        Query.parse clock predicate.text = .ok filter ∧
        Value.decode (box.reply ask).1.text =
          .ok (.list ((((box.files.filesMatching textLimit filter [scope]).take
            (Limit.ofRequest ask.limit?)).map FoundFile.object).map .map)) := by
  obtain ⟨predicate, scope, filter, hrequest, hparse⟩ := exists_filter_of_reply hengine hsearch hok
  refine ⟨predicate, scope, filter, hrequest, hparse, ?_⟩
  rw [reply_of_find hengine hrequest hparse, Answer.decode_files]

end Toolbox

end MetadataSearch
