import MetadataSearch.Engine.Files
import MetadataSearch.Proofs.Engine.FileItems
import MetadataSearch.Proofs.Search.Collecting

/-!
# Results of the file engine

Over a file tree a query is prepared exactly if it is read as a filter. Every file that is found has a
text as its path, so every handle holds a result (`Search.resultsIn_files`), and a search gives one
result for each visible file on which the filter holds, in their order (`Search.run_files`).
-/

namespace MetadataSearch

/-- The result of a found file. It has the path as it is shown. -/
def FoundFile.result (file : FoundFile) : SearchResult := ⟨file.path.text, file.item.attributes⟩

theorem FoundFile.attributes_result (file : FoundFile) :
    file.result.attributes = (Item.ofNode file.path file.node).attributes := by
  rw [FoundFile.result, FoundFile.item]

theorem SearchResult.ofItem?_item (file : FoundFile) : ofItem? file.item = some file.result := by
  rw [ofItem?, FoundFile.item, Item.get?_path_ofNode]
  rfl

variable {t : FileTree} {textLimit : Nat} {clock : Instant} {query : String}

theorem Engine.prepare_files {filter : Query.Filter} (h : Query.parse clock query = .ok filter) :
    (ofFiles t textLimit clock).prepare query = .ok fun scopes =>
      .ok ((t.filesMatching textLimit filter scopes).map fun file => some file.item) := by
  rw [ofFiles]
  simp only [h]

theorem Engine.prepare_files_of_error {e : Query.Error} (h : Query.parse clock query = .error e) :
    (ofFiles t textLimit clock).prepare query = .error (.invalidQuery e.message) := by
  rw [ofFiles]
  simp only [h]

namespace Search

/-- Every handle of a found file holds its result. -/
theorem resultsIn_files (files : List FoundFile) :
    resultsIn (files.map fun file => some file.item) = files.map FoundFile.result := by
  induction files with
  | nil => rfl
  | cons file files ih =>
    have hfile : (some file.item).bind SearchResult.ofItem? = some file.result :=
      SearchResult.ofItem?_item file
    rw [List.map_cons, resultsIn_cons_of_some hfile, ih, List.map_cons]

theorem run_files_of_error {scopes : List Path} {e : Query.Error} (cap : Option Nat)
    (hscopes : scopes ≠ []) (h : Query.parse clock query = .error e) :
    (run (.ofFiles t textLimit clock) query scopes cap).1 =
      .error (.failed (.invalidQuery e.message)) := by
  rw [run_of_prepare_error cap hscopes (Engine.prepare_files_of_error h)]

/-- **A search over files gives the files on which its filter holds.** -/
theorem run_files {scopes : List Path} {filter : Query.Filter} (hscopes : scopes ≠ [])
    (h : Query.parse clock query = .ok filter) :
    (run (.ofFiles t textLimit clock) query scopes none).1 =
      .ok ((t.filesMatching textLimit filter scopes).map FoundFile.result) := by
  rw [run_of_handles none hscopes (Engine.prepare_files h) rfl, collect_none, resultsIn_files]

/-- A search over the file engine sets its scope and has found files as results. -/
theorem results_of_run {scope : Path} {cap : Option Nat} {results : List SearchResult}
    {calls : List Engine.Call}
    (h : run (.ofFiles t textLimit clock) query [scope] cap = (.ok results, calls)) :
    .setScopes [scope] ∈ calls ∧
      ∀ result ∈ results, ∃ file ∈ t.visibleInAll [scope], result = file.result := by
  have hscopes : [scope] ≠ [] := List.cons_ne_nil scope []
  cases hparse : Query.parse clock query with
  | error e =>
    have herror : (run (.ofFiles t textLimit clock) query [scope] cap).1 =
        .error (.failed (.invalidQuery e.message)) := run_files_of_error cap hscopes hparse
    rw [h] at herror
    cases herror
  | ok filter =>
    rw [run_of_handles cap hscopes (Engine.prepare_files hparse) rfl] at h
    obtain ⟨hresults, rfl⟩ := Prod.mk.inj h
    obtain rfl := Except.ok.inj hresults
    refine ⟨List.mem_cons_of_mem _ List.mem_cons_self, fun result hresult => ?_⟩
    have hmem := (prefix_of_collect cap _).subset hresult
    rw [resultsIn_files] at hmem
    obtain ⟨file, hfile, rfl⟩ := List.mem_map.1 hmem
    exact ⟨file, (List.mem_filter.1 hfile).1, rfl⟩

end Search

end MetadataSearch
