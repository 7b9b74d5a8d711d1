import MetadataSearch.Proofs.FileTree.Canonical
import MetadataSearch.Proofs.FileTree.Visits

/-!
# Canonical scopes

A scope is canonical if it is the path of the location that is its canonical one.

**Theorem (`Shows.canonical?_path`).** What a canonical scope shows is found under its canonical path, if
that path can be looked up: no name on the way is a link, so the names of the scope and those on the way
are the location of the file. Looking the path up again gives the same file.

**Theorem (`firstVisitsCount_of_canonical`).** In canonical scopes a file is visited under one path only,
so that no visit hides a result.
-/

namespace MetadataSearch

theorem Path.identity_ofLocation {location : Location}
    (hnames : ∀ name ∈ location, Node.IsName name) :
    identity (ofLocation location) = [Path.slash] :: location := by
  have hroot : identity (ofLocation []) = [[Path.slash]] := by decide
  have hpath : location.foldl join (ofLocation []) = ofLocation location :=
    foldl_join_ofLocation (by simpa using hnames)
  rw [← hpath, identity_foldl_join (ofLocation_ne_empty []) hnames, hroot]
  rfl

namespace FileTree

variable {t : FileTree} {location : Location} {names : List FileName} {file : FoundFile}

/-- What stands at a canonical scope is at its location. -/
theorem Shows.at?_append (hscope : t.canonical? (Path.ofLocation location) = some location)
    (h : t.Shows (Path.ofLocation location) names file) :
    t.at? (location ++ names) = some file.node := by
  obtain ⟨here, hhere, -, hat⟩ := h.location?
  rw [location?_of_canonical? hscope, Option.some_inj] at hhere
  rwa [hhere]

theorem Shows.path_ofLocation (hscope : t.canonical? (Path.ofLocation location) = some location)
    (h : t.Shows (Path.ofLocation location) names file) :
    file.path = Path.ofLocation (location ++ names) := by
  have hnames := isName_of_at? (h.at?_append hscope)
  obtain ⟨node, -, hshows⟩ := h
  rw [hshows.path_eq, Path.foldl_join_ofLocation hnames]

/-- **The path of a shown file is canonical.** -/
theorem Shows.canonical?_path (hscope : t.canonical? (Path.ofLocation location) = some location)
    (h : t.Shows (Path.ofLocation location) names file)
    (hlong : Path.isTooLong file.path = false) :
    t.canonical? file.path = some (location ++ names) ∧ t.node? file.path = some file.node := by
  have hat := h.at?_append hscope
  have hdirect : t.Direct underOwnPath (location ++ names) := by
    refine direct_of_at? hat (by simp [FoundFile.node]) ?_
    rw [← h.path_ofLocation hscope, hlong]
    exact Bool.false_ne_true
  have hcanonical := canonical?_ofLocation hdirect hat
  rw [← h.path_ofLocation hscope] at hcanonical
  refine ⟨hcanonical, ?_⟩
  rw [node?, hlong, location?_of_canonical? hcanonical]
  exact hat

theorem firstVisitsCount_of_canonical (test : FoundFile → Bool) {scopes : List Path}
    (h : ∀ scope ∈ scopes, ∃ location, scope = Path.ofLocation location ∧
      t.canonical? scope = some location) : t.FirstVisitsCount test scopes := by
  have hpath : ∀ file ∈ t.visits scopes, ∃ location, file.path = Path.ofLocation location ∧
      file.identity = [Path.slash] :: location := by
    intro file hfile
    obtain ⟨scope, hscope, names, hshows⟩ := exists_shows_of_mem_visits hfile
    obtain ⟨location, rfl, hcanonical⟩ := h scope hscope
    have hnames := isName_of_at? (hshows.at?_append hcanonical)
    refine ⟨location ++ names, hshows.path_ofLocation hcanonical, ?_⟩
    rw [FoundFile.identity, hshows.path_ofLocation hcanonical, Path.identity_ofLocation hnames]
  refine firstVisitsCount_of_paths test fun a ha b hb hsame => ?_
  obtain ⟨location, hlocation, hidentity⟩ := hpath a ha
  obtain ⟨other, hother, hidentity'⟩ := hpath b hb
  rw [hidentity, hidentity'] at hsame
  rw [hlocation, hother, (List.cons.inj hsame).2]

end FileTree

end MetadataSearch
