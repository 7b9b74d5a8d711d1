import MetadataSearch.Engine.Stored
import MetadataSearch.Proofs.Search.Collecting
import MetadataSearch.Proofs.Tool.ResultObjects
import MetadataSearch.Proofs.Toolbox.Vetting

/-!
# Answers with a limit

**Theorem (`first_results_of_reply`).** A search over any engine stops reading handles as soon as it has
as many results as its cap, and gives the results that it would have cut off there. So a successful
answer lists the first results of the search without a cap, as many as the requested limit allows.

Every tool but one makes a search of what is asked, with the limit that is asked for
(`find_of_requestOf`), which is moved to the nearest number from 1 to 1000 (`Limit.ofRequest_some`). The
answer is cut once by the search and once more in the text, which changes nothing.
-/

namespace MetadataSearch

theorem Tool.name_of_ofName? {name : String} {tool : Tool} (h : ofName? name = some tool) :
    tool.name = name := by
  have hname := List.find?_some h
  exact beq_iff_eq.1 hname

namespace Toolbox

/-- A list of files is asked for. -/
def Ask.IsSearch : Ask → Prop
  | .tool name _ => name ≠ Tool.getMetadata.name
  | .raw .. => True

/-- The limit that is asked for. -/
def Ask.limit? : Ask → Option Int64
  | .tool _ arguments => arguments.integer? "limit"
  | .raw _ _ limit => limit

variable {box : Toolbox} {ask : Ask}

theorem find_of_requestOf {request : Request} (hsearch : ask.IsSearch)
    (h : box.requestOf ask = .ok request) :
    ∃ predicate scope, request = .find predicate scope (Limit.ofRequest ask.limit?) := by
  cases ask with
  | raw fragment path limit =>
    obtain ⟨predicate, scope, -, -, rfl⟩ := vetRaw_eq_ok.1 h
    exact ⟨predicate, scope, rfl⟩
  | tool name arguments =>
    rw [requestOf] at h
    split at h
    case h_2 => cases h
    case h_1 tool htool =>
      cases tool with
      | search =>
        obtain ⟨text, scope, -, -, rfl⟩ := vetSearch_eq_ok.1 h
        exact ⟨_, scope, rfl⟩
      | searchByKind =>
        obtain ⟨name, scope, kind, -, -, -, rfl⟩ := vetSearchByKind_eq_ok.1 h
        exact ⟨_, scope, rfl⟩
      | recentFiles =>
        obtain ⟨scope, since, -, -, rfl⟩ := vetRecentFiles_eq_ok.1 h
        exact ⟨_, scope, rfl⟩
      | getMetadata => exact absurd (Tool.name_of_ofName? htool).symm hsearch

/-- The text of a search is that of the first results without a cap. -/
theorem text_of_perform_find {predicate : Predicate} {scope : Path} {text : String} {limit : Nat}
    (h : (box.perform (.find predicate scope limit)).1 = .ok text) :
    ∃ results, (Search.run box.engine predicate.text [scope] none).1 = .ok results ∧
      text = Answer.ofResults (results.take limit) := by
  rw [perform_find, Search.run_some] at h
  obtain ⟨results, hresults, rfl⟩ := Outcome.map_eq_ok.1 (Outcome.mapError_eq_ok.1 h)
  obtain ⟨uncapped, hrun, rfl⟩ := Outcome.map_eq_ok.1 hresults
  refine ⟨uncapped, hrun, ?_⟩
  rw [Limit.keep, List.take_take, Nat.min_self]

/-- **Stopping early cuts the results off and does nothing else.** A run with a cap gives the first
results of the run without one, after reading as few handles as hold them, in their order. A search
that succeeds is answered with the first results, as many as the limit allows, which is the nearest number
from 1 to 1000, or 100 if none is requested. -/
theorem first_results_of_reply (box : Toolbox) (query : String) (scopes : List Path) (cap : Nat)
    (ask : Ask) :
    Limit.ofRequest none = 100 ∧
      (∀ n : Int64, (Limit.ofRequest (some n) : Int) = max 1 (min n.toInt 1000)) ∧
      (Search.run box.engine query scopes (some cap)).1 =
        (Search.run box.engine query scopes none).1.map (·.take cap) ∧
      (∀ prepared handles, scopes ≠ [] → box.engine.prepare query = .ok prepared →
        prepared scopes = .ok handles →
        (Search.run box.engine query scopes none).1 = .ok (Search.resultsIn handles) ∧
        ∃ read, Search.ReadFor cap handles read ∧
          (Search.run box.engine query scopes (some cap)).2 =
            .prepare query :: .setScopes scopes :: (List.range read).map .read) ∧
      (ask.IsSearch → (box.reply ask).1.isError = false →
        ∃ predicate scope results,
          box.requestOf ask = .ok (.find predicate scope (Limit.ofRequest ask.limit?)) ∧
          (Search.run box.engine predicate.text [scope] none).1 = .ok results ∧
          (box.reply ask).1.text =
            Answer.ofResults (results.take (Limit.ofRequest ask.limit?))) := by
  refine ⟨Limit.ofRequest_none, Limit.ofRequest_some, Search.run_some box.engine query scopes cap, ?_, ?_⟩
  · intro prepared handles hscopes hprepare hhandles
    rw [Search.run_of_handles none hscopes hprepare hhandles,
      Search.run_of_handles (some cap) hscopes hprepare hhandles, Search.collect_none]
    exact ⟨rfl, _, Search.readFor_collect cap handles, rfl⟩
  · intro hsearch hok
    obtain ⟨request, text, hrequest, hperform, hreply⟩ := exists_request_of_reply hok
    obtain ⟨predicate, scope, rfl⟩ := find_of_requestOf hsearch hrequest
    obtain ⟨results, hrun, htext⟩ := text_of_perform_find hperform
    rw [hreply]
    exact ⟨predicate, scope, results, hrequest, hrun, htext⟩

/-! ## A limit below the least -/

/-- A handle without an item stands before two items. -/
def threeHandles : StoredItems :=
  ⟨[.ofList [(Attribute.path, .string "/a")], .ofList [(Attribute.path, .string "/b")]], 1, none, none⟩

def storedBox : Toolbox := ⟨.ofStored threeHandles, .empty ⟨⟨⟨0, 0⟩, none⟩, 64⟩, .lenient, [], ⟨0, 0⟩⟩

def rootAsk : Ask := .raw "q" [Path.slash] (some (-3))

/-- The result of the first item. -/
def firstStored : SearchResult := ⟨"/a", [(Attribute.path, .text "/a")]⟩

/-- The limit is one. The first handle is passed over, and the last one is not read. -/
theorem first_results_of_reply_threeHandles :
    [[Path.slash]] ≠ [] ∧ storedBox.engine.prepare "q" = .ok (fun _ =>
        .ok (none :: threeHandles.items.map some)) ∧
      (Search.run storedBox.engine "q" [[Path.slash]] (some 1)).1 = .ok [firstStored] ∧
      (Search.run storedBox.engine "q" [[Path.slash]] (some 1)).2 =
        [.prepare "q", .setScopes [[Path.slash]], .read 0, .read 1] ∧
      Search.ReadFor 1 (none :: threeHandles.items.map some) 2 ∧
      rootAsk.IsSearch ∧ (storedBox.reply rootAsk).1.isError = false ∧
      (storedBox.reply rootAsk).1.text = "[\x7b\"_path\":\"/a\",\"kMDItemPath\":\"/a\"\x7d]" := by
  have hscopes : [[Path.slash]] ≠ [] := List.cons_ne_nil _ _
  have hok : (storedBox.reply rootAsk).1.isError = false := by decide +kernel
  obtain ⟨-, -, hcut, hhandles, hreply⟩ :=
    first_results_of_reply storedBox "q" [[Path.slash]] 1 rootAsk
  obtain ⟨hall, read, hread, hcalls⟩ := hhandles _ _ hscopes rfl rfl
  have hfirst : (Search.resultsIn (none :: threeHandles.items.map some)).take 1 = [firstStored] := rfl
  have hstarted : (Search.run storedBox.engine "q" [[Path.slash]] (some 1)).2 =
      [.prepare "q", .setScopes [[Path.slash]], .read 0, .read 1] := by decide +kernel
  obtain rfl : read = 2 := by
    have hlength := congrArg List.length (hcalls.symm.trans hstarted)
    simpa using hlength
  obtain ⟨predicate, scope, results, -, hrun, htext⟩ := hreply trivial hok
  obtain rfl : Search.resultsIn (none :: threeHandles.items.map some) = results := Except.ok.inj hrun
  have hanswer : Answer.ofResults [firstStored] = "[\x7b\"_path\":\"/a\",\"kMDItemPath\":\"/a\"\x7d]" := by
    rw [Answer.ofResults_eq_encode]
    · decide +kernel
    · intro result hresult
      obtain rfl := List.mem_singleton.1 hresult
      exact ⟨List.pairwise_singleton _ _, trivial, trivial⟩
  refine ⟨hscopes, rfl, ?_, hstarted, hread, trivial, hok, ?_⟩
  · rw [hcut, hall, ← hfirst]
    rfl
  · rw [htext, ← hanswer, ← hfirst]
    rfl

end Toolbox

end MetadataSearch
