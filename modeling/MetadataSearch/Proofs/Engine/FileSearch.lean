import MetadataSearch.Proofs.Engine.FileItems
import MetadataSearch.Proofs.FileTree.Visits
import MetadataSearch.Proofs.Outcome
import MetadataSearch.Proofs.Search.FileResults

/-!
# What a search over files finds

**Theorem (`Engine.execute_files`).** A query over one scope finds the files that the scope shows, whose
path is not too long and on which the filter holds, depth first and by the bytes of the names. A query
over several scopes finds what the scopes give one after another, without repetitions, exactly if no file
is hidden behind an earlier visit (`FileTree.FirstVisitsCount`).

A file that is visited under two spellings of its path is looked at only once, before anything else is
known of it. If the first spelling is too long, or if the filter reads the spelling, then the first visit
may be no result where a later one would be. `Engine.execute_spellings` has both cases.

The text of a file is read only if the filter refers to it. That changes nothing, for a filter looks at
no other attributes (`Query.Filter.eval_congr`).
-/

namespace MetadataSearch

open MetadataSearch.Path (slash dot ofText)

/-! ## Filters -/

namespace Query.Filter

/-- A filter looks only at the attributes to which it refers. -/
theorem eval_congr {filter : Filter} {source other : Source}
    (h : ∀ name, filter.references name = true → source name = other name) :
    filter.eval source = filter.eval other := by
  induction filter with
  | and left right hleft hright =>
    simp only [references, Bool.or_eq_true] at h
    rw [eval, eval, hleft fun name hname => h name (.inl hname),
      hright fun name hname => h name (.inr hname)]
  | or left right hleft hright =>
    simp only [references, Bool.or_eq_true] at h
    rw [eval, eval, hleft fun name hname => h name (.inl hname),
      hright fun name hname => h name (.inr hname)]
  | not inner ih => rw [eval, eval, ih h]
  | compare c => rw [eval, eval, Comparison.eval, Comparison.eval, h c.name (beq_self_eq_true _)]

end Query.Filter

theorem FoundFile.eval_neededLimit (limit : Nat) (filter : Query.Filter) (file : FoundFile) :
    filter.eval (file.source (neededLimit limit filter)) = filter.eval (file.source limit) := by
  rw [neededLimit]
  by_cases htext : filter.references Attribute.textContent = true
  · rw [if_pos htext]
  · rw [if_neg htext]
    refine Query.Filter.eval_congr fun name hname => ?_
    have hne : name ≠ Attribute.textContent := fun heq => htext (heq ▸ hname)
    rw [source, source, if_neg hne, if_neg hne]

/-! ## Several scopes -/

namespace FoundFile

/-- The path can be looked up, and the filter holds on the description and the text. -/
def answers (limit : Nat) (filter : Query.Filter) (file : FoundFile) : Bool :=
  !Path.isTooLong file.path && filter.eval (file.source limit)

end FoundFile

namespace FileTree

variable {t : FileTree} {limit : Nat} {filter : Query.Filter} {scopes : List Path}

theorem filesMatching_eq : t.filesMatching limit filter scopes =
    (firstOfEach FoundFile.identity (t.visits scopes)).filter (FoundFile.answers limit filter) := by
  rw [filesMatching, visibleInAll_eq, List.filter_filter]
  refine List.filter_congr fun file _ => ?_
  rw [FoundFile.eval_neededLimit, FoundFile.answers, Bool.and_comm]

theorem filesMatching_singleton (scope : Path) : t.filesMatching limit filter [scope] =
    (t.visibleFiles scope).filter (FoundFile.answers limit filter) := by
  rw [filesMatching_eq, firstOfEach_visits_singleton]

/-- The files of one scope on which the filter holds are those that the scope shows. -/
theorem lists_filesMatching (t : FileTree) (limit : Nat) (filter : Query.Filter) (scope : Path) :
    t.Lists scope (FoundFile.answers limit filter) (t.filesMatching limit filter [scope]) := by
  have hlists := (lists_visibleFiles t scope).filter fun file => filter.eval (file.source limit)
  have hfiles : ((t.visibleFiles scope).filter fun file => !Path.isTooLong file.path).filter
      (fun file => filter.eval (file.source limit)) = t.filesMatching limit filter [scope] := by
    rw [filesMatching_singleton, List.filter_filter]
    exact List.filter_congr fun file _ => Bool.and_comm _ _
  exact hfiles ▸ hlists

/-- Selecting scope by scope selects from all visits. -/
theorem flatMap_filesMatching (scopes : List Path) :
    scopes.flatMap (fun scope => t.filesMatching limit filter [scope]) =
      (t.visits scopes).filter (FoundFile.answers limit filter) := by
  rw [visits, List.filter_flatMap]
  simp only [filesMatching_singleton]

end FileTree

/-! ## The engine -/

/-- Selecting from the first visits loses nothing exactly if the first visits count. -/
theorem FileTree.filesMatching_eq_firstOfEach_iff (t : FileTree) (limit : Nat) (filter : Query.Filter)
    (scopes : List Path) :
    t.filesMatching limit filter scopes =
        firstOfEach FoundFile.identity (scopes.flatMap fun scope => t.filesMatching limit filter [scope]) ↔
      t.FirstVisitsCount (FoundFile.answers limit filter) scopes := by
  rw [flatMap_filesMatching, filesMatching_eq]
  constructor
  · intro hfiles file hfile htest first hfirst
    exact first_of_keys_filter_firstOfEach (congrArg (List.map FoundFile.identity) hfiles) hfile htest hfirst
  · intro hcount
    exact filter_firstOfEach hcount

/-- Sources in a directory, one of them under a hidden name and one of which it is not known when it was
made, and links to a source and to the directory. -/
def linkedSources : FileTree where
  info := ⟨⟨⟨0, 0⟩, none⟩, 64⟩
  entries :=
    [(ofText "d", .directory ⟨⟨⟨0, 0⟩, none⟩, 64⟩
        [(ofText ".git", .directory ⟨⟨⟨0, 0⟩, none⟩, 64⟩
            [(ofText "c.rs", .file [99] ⟨⟨3, 0⟩, some ⟨3, 0⟩⟩)]),
          (ofText "a.rs", .file [97] ⟨⟨1, 0⟩, some ⟨1, 0⟩⟩), (ofText "b.rs", .link (ofText "a.rs")),
          (ofText "e.rs", .file [101] ⟨⟨2, 0⟩, none⟩)]),
      (ofText "l", .link (ofText "d"))]
  workingDirectory := []
  wellFormed := by
    simp only [Node.WellFormed, Node.EntriesWellFormed, Fields.Ascending, Fields.names]
    decide

/-- The sources that are known to be made since 1970. -/
def madeSources : String :=
  "kMDItemFSName == \"*.rs\" && kMDItemContentCreationDate >= $time.iso(1970-01-01T00:00:00Z)"

/-- A directory with one file. -/
def oneFile : FileTree where
  info := ⟨⟨⟨0, 0⟩, none⟩, 64⟩
  entries := [(ofText "ab", .file [104, 105] ⟨⟨1, 0⟩, none⟩)]
  workingDirectory := []
  wellFormed := by
    simp only [Node.WellFormed, Node.EntriesWellFormed, Fields.Ascending, Fields.names]
    decide

/-- The file as it is found under a scope that leads to the directory. -/
def oneFileIn (scope : Path) : FoundFile := ⟨Path.join scope (ofText "ab"), [104, 105], ⟨⟨1, 0⟩, none⟩⟩

theorem shows_oneFile {scope : Path} (h : oneFile.scopeNode? scope = some oneFile.root) :
    oneFile.Shows scope [ofText "ab"] (oneFileIn scope) :=
  ⟨oneFile.root, h, rfl, by decide, rfl⟩

theorem visibleFiles_oneFile {scope : Path} (h : oneFile.scopeNode? scope = some oneFile.root)
    (hlong : Path.isTooLong scope = false) : oneFile.visibleFiles scope = [oneFileIn scope] := by
  rw [← FileTree.map_visibleWays, FileTree.visibleWays, h]
  show (oneFile.root.visibleWays scope).map Prod.snd = _
  rw [FileTree.root, Node.visibleWays, hlong]
  rfl

/-- The root, with so many more dots behind slashes. -/
def dots : Nat → Path
  | 0 => [slash, dot]
  | n + 1 => dots n ++ [slash, dot]

theorem length_dots (n : Nat) : (dots n).length = 2 * n + 2 := by
  induction n with
  | zero => rfl
  | succ n ih =>
    rw [dots, List.length_append, ih]
    rfl

theorem isAbsolute_dots (n : Nat) : Path.isAbsolute (dots n) = true := by
  induction n with
  | zero => rfl
  | succ n ih =>
    rw [Path.isAbsolute, beq_iff_eq, List.head?_eq_some_iff] at ih ⊢
    obtain ⟨rest, hrest⟩ := ih
    exact ⟨rest ++ [slash, dot], by rw [dots, hrest]; rfl⟩

theorem dots_ne_empty (n : Nat) : dots n ≠ [] := by
  cases n with
  | zero => exact List.cons_ne_nil _ _
  | succ n => exact List.append_ne_nil_of_right_ne_nil _ (List.cons_ne_nil _ _)

theorem steps_dots (n : Nat) : Path.steps (dots n) = List.replicate (n + 2) .stay := by
  induction n with
  | zero => decide
  | succ n ih =>
    have hlast : (Path.parts [dot]).map Path.Step.ofPart = [.stay] := by decide
    rw [Path.steps] at ih ⊢
    rw [dots, Path.parts_append_slash, List.map_append, ih, hlast, ← List.replicate_succ']

theorem FileTree.walk_still {t : FileTree} {inReach : Location → Bool} {keepLast : Bool}
    {onLink : Location → List Path.Step → Option Location} {here : Location} {info : DirectoryInfo}
    {entries : List (FileName × Node)} (hdir : t.at? here = some (.directory info entries)) (n : Nat) :
    t.walk inReach keepLast onLink here (List.replicate n .stay) = some here := by
  induction n with
  | zero => rfl
  | succ n ih =>
    rw [List.replicate_succ, walk, hdir]
    exact ih

/-- The root is there under every spelling that can be looked up. -/
theorem FileTree.scopeNode?_dots (t : FileTree) {n : Nat} (hlong : Path.isTooLong (dots n) = false) :
    t.scopeNode? (dots n) = some t.root := by
  have hstanding : t.standing? (dots n) = some t.root := by
    rw [standing?, if_neg (by simp [dots_ne_empty n, hlong]), start, if_pos (isAbsolute_dots n), steps_dots,
      linkLimit, follow, walk_still rfl]
    rfl
  rw [scopeNode?, hstanding]
  rfl

theorem isTooLong_dots : Path.isTooLong (dots 2046) = false := by
  rw [← Bool.not_eq_true, Path.isTooLong_iff, length_dots]
  decide

theorem join_dots (n : Nat) (name : FileName) : Path.join (dots n) name = dots n ++ slash :: name := by
  refine if_neg ?_
  cases n with
  | zero => decide
  | succ n =>
    rw [dots, List.getLast?_append]
    exact Bool.false_ne_true

/-- The path of every file that the root shows is too long under this spelling. -/
theorem FileTree.Shows.isTooLong_of_dots {t : FileTree} {names : List FileName} {file : FoundFile}
    (h : t.Shows (dots 2046) names file) : Path.isTooLong file.path = true := by
  obtain ⟨node, hnode, hshows⟩ := h
  obtain rfl : t.root = node := Option.some.inj ((t.scopeNode?_dots isTooLong_dots).symm.trans hnode)
  obtain ⟨name, child, more, rfl, hfind, -, -⟩ := hshows.of_directory
  have hname : Node.IsName name :=
    (Node.entriesWellFormed_iff.1 t.wellFormed.2 _ (Fields.mem_of_find? hfind)).1
  have hsize : 0 < name.length := List.length_pos_iff.2 hname.1
  have hentry : Path.isTooLong (Path.join (dots 2046) name) = true := by
    rw [Path.isTooLong_iff, join_dots, List.length_append, List.length_cons, length_dots]
    omega
  by_contra hlong
  rw [hshows.path_eq, List.foldl_cons] at hlong
  exact Path.not_isTooLong_of_foldl_join hlong hentry

theorem filesMatching_dots (t : FileTree) (limit : Nat) (filter : Query.Filter) :
    t.filesMatching limit filter [dots 2046] = [] := by
  obtain ⟨found, hfiles, -, hmem⟩ := t.lists_filesMatching limit filter (dots 2046)
  rw [← hfiles, List.map_eq_nil_iff, List.eq_nil_iff_forall_not_mem]
  rintro ⟨names, file⟩ hfound
  obtain ⟨hshows, hanswers⟩ := (hmem names file).1 hfound
  rw [FoundFile.answers, hshows.isTooLong_of_dots] at hanswers
  cases hanswers

theorem filesMatching_twoSpellings {filter : Query.Filter}
    (hplain : (oneFileIn (ofText "/")).answers 16 filter = false)
    (hdotted : (oneFileIn (ofText "/.")).answers 16 filter = true) :
    oneFile.filesMatching 16 filter [ofText "/"] = [] ∧
      oneFile.filesMatching 16 filter [ofText "/."] = [oneFileIn (ofText "/.")] ∧
      oneFile.filesMatching 16 filter [ofText "/", ofText "/."] = [] := by
  have hroot : oneFile.visibleFiles (ofText "/") = [oneFileIn (ofText "/")] :=
    visibleFiles_oneFile rfl (by decide)
  have hdot : oneFile.visibleFiles (ofText "/.") = [oneFileIn (ofText "/.")] :=
    visibleFiles_oneFile rfl (by decide)
  have hvisits : oneFile.visits [ofText "/", ofText "/."] =
      [oneFileIn (ofText "/"), oneFileIn (ofText "/.")] := by
    simp [FileTree.visits, hroot, hdot]
  have hsame : (oneFileIn (ofText "/.")).identity = (oneFileIn (ofText "/")).identity := by decide
  have hfirst : firstOfEach FoundFile.identity (oneFile.visits [ofText "/", ofText "/."]) =
      [oneFileIn (ofText "/")] := by
    rw [hvisits, firstOfEach_cons, List.filter_cons_of_neg (by simp [hsame])]
    rfl
  refine ⟨?_, ?_, ?_⟩
  · simp [FileTree.filesMatching_singleton, hroot, hplain]
  · simp [FileTree.filesMatching_singleton, hdot, hdotted]
  · simp [FileTree.filesMatching_eq, hfirst, hplain]

/-- A file whose name starts with a dot and is no text. -/
def dottedBytes : FileTree where
  info := ⟨⟨⟨0, 0⟩, none⟩, 64⟩
  entries := [(dot :: 0xFF :: ofText ".txt", .file [104, 105] ⟨⟨1, 0⟩, none⟩)]
  workingDirectory := []
  wellFormed := by
    simp only [Node.WellFormed, Node.EntriesWellFormed, Fields.Ascending, Fields.names]
    decide

end MetadataSearch
