import MetadataSearch.Proofs.FileTree.CanonicalScopes

/-!
# Two spellings of one directory

A path may lead to a directory through links and up again. A search through it finds the files of the
directory under that spelling.

**Theorem (`Lists.under`).** Let two scopes lead to one directory, and let a test tell no difference
between a file and the same file as it is found under the other scope. Then the files that one scope
lists are those that the other one lists, in the same order, each under the other spelling.

Both scopes show what the node at their common location shows (`scopeNode?_of_directory`), and the order
is by the names below the scope, not by paths. If one of the scopes is canonical, so are the paths under
it: the same names lead from the other spelling to the same location (`canonical?_foldl_join`).
-/

namespace MetadataSearch

open MetadataSearch.Path (Step)

/-- The file as it is found under a scope, to which these names are below. -/
def FoundFile.under (scope : Path) (names : List FileName) (file : FoundFile) : FoundFile :=
  { file with path := names.foldl Path.join scope }

namespace Path

/-- A path that ends with a slash has one step more than the names, which is to stay. -/
theorem steps_foldl_join (path : Path) {names : List FileName} (hne : names ≠ [])
    (hnames : ∀ name ∈ names, Node.IsName name) :
    ∃ front, (steps path = front ∨ steps path = front ++ [.stay]) ∧
      steps (names.foldl join path) = front ++ names.map .down := by
  induction names generalizing path with
  | nil => exact absurd rfl hne
  | cons name names ih =>
    obtain ⟨hname, hrest⟩ := List.forall_mem_cons.1 hnames
    obtain ⟨front, hpath, hjoin⟩ := steps_join path hname
    refine ⟨front, hpath, ?_⟩
    by_cases hnil : names = []
    · rw [hnil]
      exact hjoin
    · obtain ⟨more, hmore, hsteps⟩ := ih (join path name) hnil hrest
      -- The steps of the entry end with a step down, so they end with no slash.
      have hfront : more = front ++ [.down name] := by
        rcases hmore with hmore | hmore
        · rw [← hmore, hjoin]
        · rw [hjoin] at hmore
          have hlast := congrArg List.getLast? hmore
          rw [List.getLast?_concat, List.getLast?_concat] at hlast
          cases hlast
      rw [List.foldl_cons, hsteps, hfront, List.append_assoc]
      rfl

theorem isAbsolute_foldl_join {path : Path} (names : List FileName) (h : isAbsolute path = true) :
    isAbsolute (names.foldl join path) = true := by
  induction names generalizing path with
  | nil => exact h
  | cons name names ih =>
    have hne : path ≠ [] := by
      rintro rfl
      cases h
    exact ih (by rw [isAbsolute_join name hne, h])

end Path

/-- A node shows the same names under every path. -/
theorem Node.Shows.under {node : Node} {path : Path} {names : List FileName} {file : FoundFile}
    (h : node.Shows path names file) (other : Path) :
    node.Shows other names (file.under other names) :=
  ⟨h.at_names, h.visible, rfl⟩

namespace FileTree

variable {t : FileTree} {inReach : Location → Bool}

/-! ## Scopes that lead to a directory -/

/-- A walk that keeps a last link arrives where the route leads, or at a link on the way. -/
theorem exists_follow_keepLast {links : Nat} {here there : Location} {steps : List Step}
    (h : Route t inReach links here steps there) :
    ∃ stop, t.follow inReach true links here steps = some stop ∧
      (stop = there ∨ ∃ target, t.at? stop = some (.link target)) := by
  induction h with
  | @nil links here => exact ⟨here, by cases links <;> rfl, .inl rfl⟩
  | @stay links _ _ _ _ _ hdir _ ih =>
    obtain ⟨stop, hstop, hwhere⟩ := ih
    exact ⟨stop, by cases links <;> (rw [follow, walk, hdir]; exact hstop), hwhere⟩
  | @up links _ _ _ _ _ hdir _ ih =>
    obtain ⟨stop, hstop, hwhere⟩ := ih
    exact ⟨stop, by cases links <;> (rw [follow, walk, hdir]; exact hstop), hwhere⟩
  | @down links here _ _ _ _ name node hdir hreach hfind hnode _ ih =>
    obtain ⟨stop, hstop, hwhere⟩ := ih
    refine ⟨stop, ?_, hwhere⟩
    cases node with
    | link target => exact absurd rfl (hnode target)
    | _ => cases links <;> (simp only [follow, walk, hdir, hreach, hfind]; exact hstop)
  | @link links here _ rest _ _ name target hdir hreach hfind _ ih =>
    by_cases hrest : rest = []
    · refine ⟨here ++ [name], ?_, .inr ⟨target, at?_child hdir hfind⟩⟩
      simp only [follow, walk, hdir, hreach, hfind, hrest]
      rfl
    · obtain ⟨stop, hstop, hwhere⟩ := ih
      refine ⟨stop, ?_, hwhere⟩
      simp only [follow, walk, hdir, hreach, hfind, List.isEmpty_eq_false_iff.2 hrest]
      exact hstop

/-- What stands at a path to a directory is the directory. -/
theorem scopeNode?_of_directory {path : Path} {here : Location} {node : Node}
    (hlocation : t.location? path = some here) (hat : t.at? here = some node)
    (hdir : node.isDirectory = true) (hlong : Path.isTooLong path = false) :
    t.scopeNode? path = some node := by
  have hnode : t.node? path = some node := by
    rw [node?, hlong, hlocation]
    exact hat
  rw [location?] at hlocation
  split at hlocation
  case isTrue => cases hlocation
  case isFalse hne =>
    have hroute : Route t anywhere linkLimit (t.start path) (Path.steps path) here :=
      follow_eq_some_iff.1 hlocation
    obtain ⟨stop, hstop, hwhere⟩ := exists_follow_keepLast hroute
    have hstanding : t.standing? path = t.at? stop := by
      rw [standing?, if_neg (by simp [hne, hlong]), hstop]
      rfl
    rw [scopeNode?, hstanding]
    rcases hwhere with rfl | ⟨target, htarget⟩
    · rw [hat]
      cases node with
      | directory info entries => rfl
      | _ => cases hdir
    · rw [htarget]
      exact Option.filter_eq_some_iff.2 ⟨hnode, hdir⟩

theorem Direct.isTooLong_ofLocation {location : Location} (h : t.Direct underOwnPath location) :
    Path.isTooLong (Path.ofLocation location) = false := by
  rcases List.eq_nil_or_concat location with rfl | ⟨outer, name, rfl⟩
  · decide
  · rw [List.concat_eq_append, Direct, List.map_append] at h
    obtain ⟨i, j, mid, hsum, -, hlast⟩ := h.split
    obtain ⟨rfl, rfl⟩ : i = 0 ∧ j = 0 := by omega
    cases hlast with
    | down _ hreach _ _ hrest =>
      generalize hthere : mid ++ [name] = there at hrest
      cases hrest
      rw [hthere] at hreach
      simpa [underOwnPath] using hreach

/-! ## Canonical paths under another spelling -/

/-- Names that lead on from the canonical path lead on from every other spelling. -/
theorem canonical?_foldl_join {path : Path} {here : Location} {names : List FileName} {node : Node}
    (habs : Path.isAbsolute path = true) (h : t.canonical? path = some here) (hne : names ≠ [])
    (hdirect : t.Direct underOwnPath (here ++ names)) (hat : t.at? (here ++ names) = some node) :
    t.canonical? (names.foldl Path.join path) = some (here ++ names) := by
  have hhere := direct_of_canonical? habs h
  rw [Direct, List.map_append] at hdirect
  obtain ⟨i, j, mid, hsum, hmid, hnames⟩ := hdirect.split
  obtain rfl : mid = here := hmid.unique hhere
  have hpathAbs := Path.isAbsolute_foldl_join names habs
  have hpathNe : names.foldl Path.join path ≠ [] := by
    intro hempty
    rw [hempty] at hpathAbs
    cases hpathAbs
  obtain ⟨front, hpath, hsteps⟩ := Path.steps_foldl_join path hne fun name hname =>
    isName_of_at? hat name (List.mem_append_right _ hname)
  have hfront : Route t underOwnPath linkLimit [] front mid := by
    have hroute := route_of_canonical? habs h
    rcases hpath with hpath | hpath
    · rwa [hpath] at hroute
    · rw [hpath] at hroute
      exact hroute.of_append_stay
  rw [canonical?, if_neg hpathNe, start, if_pos hpathAbs, hsteps]
  exact follow_of_route ((hfront.append hnames).mono_links (by omega))

/-! ## Lists under another spelling -/

variable {path other : Path} {node : Node} {test : FoundFile → Bool} {files : List FoundFile}

/-- **A directory is listed alike under both spellings.** -/
theorem Lists.under (hpath : t.scopeNode? path = some node)
    (hother : Path.isTooLong other = false → t.scopeNode? other = some node)
    (hshort : ∀ file, test file = true → Path.isTooLong file.path = false)
    (hagree : ∀ names file, t.Shows path names file → test (file.under other names) = test file)
    (h : t.Lists path test files) :
    ∃ found : List (Location × FoundFile), found.map Prod.snd = files ∧
      (∀ way ∈ found, t.Shows path way.1 way.2 ∧ test way.2 = true) ∧
      t.Lists other test (found.map fun way => way.2.under other way.1) := by
  obtain ⟨found, rfl, hpairwise, hmem⟩ := h
  refine ⟨found, rfl, fun way hway => (hmem way.1 way.2).1 hway, ?_⟩
  refine ⟨found.map fun way => (way.1, way.2.under other way.1), ?_, ?_, fun names file => ?_⟩
  · rw [List.map_map]
    rfl
  · rw [List.pairwise_map]
    exact hpairwise
  · rw [List.mem_map]
    constructor
    · rintro ⟨⟨more, found⟩, hway, heq⟩
      obtain ⟨rfl, rfl⟩ := Prod.mk.inj heq
      obtain ⟨hshows, htest⟩ := (hmem more found).1 hway
      rw [← hagree more found hshows] at htest
      obtain ⟨_, hnode, hbelow⟩ := hshows
      obtain rfl := Option.some.inj (hpath.symm.trans hnode)
      have hlong : ¬ Path.isTooLong other = true := by
        have hall : ¬ Path.isTooLong (more.foldl Path.join other) = true := by
          rw [Bool.not_eq_true]
          exact hshort _ htest
        exact Path.not_isTooLong_of_foldl_join hall
      exact ⟨⟨node, hother (by simpa using hlong), hbelow.under other⟩, htest⟩
    · rintro ⟨⟨_, hnode, hbelow⟩, htest⟩
      have hlong : Path.isTooLong other = false := by
        have hfile := hshort file htest
        rw [hbelow.path_eq, ← Bool.not_eq_true] at hfile
        simpa using Path.not_isTooLong_of_foldl_join hfile
      obtain rfl := Option.some.inj ((hother hlong).symm.trans hnode)
      have hback : (file.under path names).under other names = file := by
        rw [FoundFile.under, FoundFile.under, ← hbelow.path_eq]
      have hshows : t.Shows path names (file.under path names) := ⟨node, hpath, hbelow.under path⟩
      have hsame := hagree names _ hshows
      rw [hback, htest] at hsame
      exact ⟨(names, file.under path names), (hmem _ _).2 ⟨hshows, hsame.symm⟩, by rw [hback]⟩

end FileTree

end MetadataSearch
