import Mathlib.Data.List.Nodup
import MetadataSearch.Proofs.Engine.FileSearch
import MetadataSearch.Proofs.FileTree.CanonicalScopes

/-!
# Files that are found twice

**Theorem (`Engine.execute_repeats_iff`).** No path is found twice, under whatever spelling of it that only
repeats slashes or dots. A file is found under two paths exactly if it is found below two scopes, one of
which leads to a place that the other one reaches further down, but is spelled otherwise
(`FileTree.Respelled`): by going up and down again, or through a link.

Below a scope the names on the way are real: they are a part both of the path of a file and of its location.
So where two paths lead to one location, the location of one scope is a front of that of the other, and what
is left of it are names that only one of the two paths has from its scope. If the scopes are spelled alike,
these names make up the difference, and the paths are the same.
-/

namespace MetadataSearch

open MetadataSearch.Path (ofText)

namespace FileTree

variable {t : FileTree} {limit : Nat} {filter : Query.Filter} {scopes : List Path}

/-- The inner scope leads to where the way leads from the place of the outer one, but it is not spelled
as the outer one with the way behind it. -/
def Respelled (t : FileTree) (outer : Path) (way : List FileName) (inner : Path) : Prop :=
  (∃ here, t.location? outer = some here ∧ t.location? inner = some (here ++ way)) ∧
    Path.identity inner ≠ Path.identity outer ++ way

/-- Two of the files are one, found below two scopes that are spelled otherwise. -/
def FoundTwice (t : FileTree) (scopes : List Path) (files : List FoundFile) : Prop :=
  ∃ outer ∈ scopes, ∃ inner ∈ scopes, ∃ way names, t.Respelled outer way inner ∧
    (∃ a ∈ files, t.Shows outer (way ++ names) a) ∧ ∃ b ∈ files, t.Shows inner names b

/-! ## Paths -/

theorem exists_shows_of_filesMatching {file : FoundFile} (h : file ∈ t.filesMatching limit filter scopes) :
    ∃ scope ∈ scopes, ∃ names, t.Shows scope names file := by
  rw [filesMatching_eq, List.mem_filter, mem_firstOfEach_iff] at h
  exact exists_shows_of_mem_visits (List.mem_of_find?_eq_some h.1)

theorem nodup_identity_filesMatching (t : FileTree) (limit : Nat) (filter : Query.Filter)
    (scopes : List Path) :
    ((t.filesMatching limit filter scopes).map FoundFile.identity).Nodup := by
  rw [filesMatching_eq]
  exact (nodup_keys_firstOfEach _).sublist (List.filter_sublist.map _)

/-! ## Places -/

/-- What two scopes show at one place has two paths only if one of the scopes is spelled otherwise. -/
theorem Shows.respelled {outer inner : Path} {way names : List FileName} {here : Location}
    {a b : FoundFile} (ha : t.Shows outer (way ++ names) a) (hb : t.Shows inner names b)
    (houter : t.location? outer = some here) (hinner : t.location? inner = some (here ++ way))
    (hne : a.identity ≠ b.identity) : t.Respelled outer way inner := by
  refine ⟨⟨here, houter, hinner⟩, fun hsame => hne ?_⟩
  rw [FoundFile.identity, FoundFile.identity, ha.identity_path, hb.identity_path, hsame,
    List.append_assoc]

/-- What two scopes show at one place is at or below the place of both. -/
theorem Shows.exists_way {scope other : Path} {names others : List FileName} {a b : FoundFile}
    (ha : t.Shows scope names a) (hb : t.Shows other others b)
    (hplace : t.location? a.path = t.location? b.path) :
    ∃ here way, (t.location? scope = some here ∧ t.location? other = some (here ++ way) ∧
        names = way ++ others) ∨
      (t.location? other = some here ∧ t.location? scope = some (here ++ way) ∧
        others = way ++ names) := by
  obtain ⟨here, hhere, hlocation, -⟩ := ha.location?
  obtain ⟨there, hthere, hlocation', -⟩ := hb.location?
  rw [hlocation, hlocation', Option.some_inj, List.append_eq_append_iff] at hplace
  rcases hplace with ⟨way, rfl, rfl⟩ | ⟨way, rfl, rfl⟩
  · exact ⟨here, way, .inl ⟨hhere, hthere, rfl⟩⟩
  · exact ⟨there, way, .inr ⟨hthere, hhere, rfl⟩⟩

/-- Files with different paths are at one place only if they were found twice. -/
theorem nodup_location_iff {files : List FoundFile}
    (hshows : ∀ file ∈ files, ∃ scope ∈ scopes, ∃ names, t.Shows scope names file)
    (hpaths : (files.map FoundFile.identity).Nodup) :
    (files.map fun file => t.location? file.path).Nodup ↔ ¬ t.FoundTwice scopes files := by
  constructor
  · rintro hplaces ⟨outer, -, inner, -, way, names, ⟨⟨here, houter, hinner⟩, hspelled⟩,
      ⟨a, ha, hshowsA⟩, b, hb, hshowsB⟩
    obtain ⟨_, hhere, hlocation, -⟩ := hshowsA.location?
    obtain ⟨_, hthere, hlocation', -⟩ := hshowsB.location?
    obtain rfl := Option.some.inj (houter.symm.trans hhere)
    obtain rfl := Option.some.inj (hinner.symm.trans hthere)
    have hsame : t.location? a.path = t.location? b.path := by
      rw [hlocation, hlocation', List.append_assoc]
    obtain rfl : a = b := List.inj_on_of_nodup_map hplaces ha hb hsame
    have hidentity := hshowsA.identity_path.symm.trans hshowsB.identity_path
    rw [← List.append_assoc] at hidentity
    exact hspelled (List.append_cancel_right hidentity).symm
  · intro hnone
    rw [List.Nodup, List.pairwise_map] at hpaths ⊢
    refine hpaths.imp_of_mem fun {a b} ha hb hne hsame => hnone ?_
    obtain ⟨scope, hscope, names, hshowsA⟩ := hshows a ha
    obtain ⟨other, hother, others, hshowsB⟩ := hshows b hb
    obtain ⟨here, way, ⟨hhere, hthere, rfl⟩ | ⟨hthere, hhere, rfl⟩⟩ := hshowsA.exists_way hshowsB hsame
    · exact ⟨scope, hscope, other, hother, way, others,
        hshowsA.respelled hshowsB hhere hthere hne, ⟨a, ha, hshowsA⟩, b, hb, hshowsB⟩
    · exact ⟨other, hother, scope, hscope, way, names,
        hshowsB.respelled hshowsA hthere hhere hne.symm, ⟨b, hb, hshowsB⟩, a, ha, hshowsA⟩

/-- In canonical scopes no file is found twice. -/
theorem nodup_location_of_canonical (limit : Nat) (filter : Query.Filter)
    (h : ∀ scope ∈ scopes, ∃ location, scope = Path.ofLocation location ∧
      t.canonical? scope = some location) :
    ((t.filesMatching limit filter scopes).map fun file => t.location? file.path).Nodup := by
  have hshows : ∀ file ∈ t.filesMatching limit filter scopes,
      ∃ scope ∈ scopes, ∃ names, t.Shows scope names file := fun _ => exists_shows_of_filesMatching
  rw [nodup_location_iff hshows (nodup_identity_filesMatching t limit filter scopes)]
  rintro ⟨outer, houter, inner, hinner, way, names, ⟨⟨here, hhere, hthere⟩, hspelled⟩,
    ⟨a, -, hshowsA⟩, b, -, hshowsB⟩
  obtain ⟨_, rfl, hcanonical⟩ := h outer houter
  obtain ⟨_, rfl, hcanonical'⟩ := h inner hinner
  obtain rfl := Option.some.inj ((location?_of_canonical? hcanonical).symm.trans hhere)
  obtain rfl := Option.some.inj ((location?_of_canonical? hcanonical').symm.trans hthere)
  have hnames := isName_of_at? (hshowsB.at?_append hcanonical')
  rw [List.forall_mem_append, List.forall_mem_append] at hnames
  refine hspelled ?_
  rw [Path.identity_ofLocation (List.forall_mem_append.2 hnames.1), Path.identity_ofLocation hnames.1.1]
  rfl

end FileTree

/-- **A file is found twice exactly if two scopes lead to it that are spelled otherwise.** -/
theorem Engine.execute_repeats_iff {clock : Instant} {query : String} {filter : Query.Filter}
    (h : Query.parse clock query = .ok filter) (t : FileTree) (limit : Nat) :
    ∃ execute, (Engine.ofFiles t limit clock).prepare query = .ok execute ∧ ∀ scopes,
      execute scopes = .ok ((t.filesMatching limit filter scopes).map fun file => some file.item) ∧
      ((t.filesMatching limit filter scopes).map FoundFile.identity).Nodup ∧
      (((t.filesMatching limit filter scopes).map fun file => t.location? file.path).Nodup ↔
        ¬ t.FoundTwice scopes (t.filesMatching limit filter scopes)) := by
  refine ⟨_, Engine.prepare_files h, fun scopes => ⟨rfl, ?_, ?_⟩⟩
  · exact FileTree.nodup_identity_filesMatching t limit filter scopes
  · exact FileTree.nodup_location_iff (fun _ => FileTree.exists_shows_of_filesMatching)
      (FileTree.nodup_identity_filesMatching t limit filter scopes)

/-- One directory as a scope in two spellings. -/
def upAndDown : List Path := [ofText "/d", ofText "/d/../d"]

/-- The source in the directory is found twice. -/
theorem Engine.execute_repeats_iff_upAndDown :
    ∃ filter execute, Query.parse ⟨0, 0⟩ madeSources = .ok filter ∧
      (Engine.ofFiles linkedSources 16 ⟨0, 0⟩).prepare madeSources = .ok execute ∧
      execute upAndDown =
        .ok ((linkedSources.filesMatching 16 filter upAndDown).map fun file => some file.item) ∧
      ((linkedSources.filesMatching 16 filter upAndDown).map fun file =>
        (file.path, linkedSources.location? file.path)) =
          [(ofText "/d/a.rs", some [ofText "d", ofText "a.rs"]),
            (ofText "/d/../d/a.rs", some [ofText "d", ofText "a.rs"])] ∧
      linkedSources.FoundTwice upAndDown (linkedSources.filesMatching 16 filter upAndDown) := by
  have hfound : (Query.parse ⟨0, 0⟩ madeSources).toOption.map (fun filter =>
      (linkedSources.filesMatching 16 filter upAndDown).map fun file =>
        (file.path, linkedSources.location? file.path)) =
      some [(ofText "/d/a.rs", some [ofText "d", ofText "a.rs"]),
        (ofText "/d/../d/a.rs", some [ofText "d", ofText "a.rs"])] := by
    decide +kernel
  obtain ⟨filter, hfilter, hfiles⟩ := Option.map_eq_some_iff.1 hfound
  have hparse := Outcome.toOption_eq_some.1 hfilter
  obtain ⟨execute, hprepare, hscopes⟩ := Engine.execute_repeats_iff hparse linkedSources 16
  obtain ⟨hexecute, -, hrepeats⟩ := hscopes upAndDown
  have hplaces : (linkedSources.filesMatching 16 filter upAndDown).map
      (fun file => linkedSources.location? file.path) =
        [some [ofText "d", ofText "a.rs"], some [ofText "d", ofText "a.rs"]] := by
    have hseconds := congrArg (List.map Prod.snd) hfiles
    rwa [List.map_map] at hseconds
  refine ⟨filter, execute, hparse, hprepare, hexecute, hfiles, ?_⟩
  rw [hplaces] at hrepeats
  exact Classical.not_not.1 (mt hrepeats.2 (by decide))

end MetadataSearch
