import MetadataSearch.FileTree.Visible
import MetadataSearch.Proofs.FileTree.EntryPaths
import MetadataSearch.Proofs.FileTree.OwnPath
import MetadataSearch.Proofs.Text.Encoding

/-!
# What a scope shows

A scope shows a file if names lead to it from what stands at the scope, through real directories, and
none of them is a text that starts with a dot (`FileTree.Shows`). Those are the hidden names
(`isHidden_iff`). The relation says nothing about order, repetitions or the length of paths.

**Theorem (`lists_visibleFiles`).** The visible files of a scope whose own path can be read are the files
that the scope shows and whose path is not too long. They come depth first, by the bytes of the names in
each directory.

The names are kept beside the files (`Node.visibleWays`). The names of a directory ascend, so that of two
ways the one with the smaller name comes first where they part (`Precedes`). A path grows with every name,
so that no directory on the way to a readable file is too long to be opened.

**Theorem (`nodup_identity_visibleFiles`).** No file of one scope repeats another. A path has the segments
of its scope and then the names on the way (`Path.identity_foldl_join`).
-/

namespace MetadataSearch

/-! ## The order of ways -/

/-- Where two ways part, the name on the first one has the smaller bytes. -/
def Precedes (way other : List FileName) : Prop :=
  ∃ front name next rest more, way = front ++ name :: rest ∧ other = front ++ next :: more ∧
    name < next

theorem Precedes.cons {way other : List FileName} (h : Precedes way other) (name : FileName) :
    Precedes (name :: way) (name :: other) := by
  obtain ⟨front, first, next, rest, more, rfl, rfl, hlt⟩ := h
  exact ⟨name :: front, first, next, rest, more, rfl, rfl, hlt⟩

theorem Precedes.of_lt {name next : FileName} (h : name < next) (rest more : List FileName) :
    Precedes (name :: rest) (next :: more) :=
  ⟨[], name, next, rest, more, rfl, rfl, h⟩

theorem Precedes.ne {way other : List FileName} (h : Precedes way other) : way ≠ other := by
  obtain ⟨front, name, next, rest, more, rfl, rfl, hlt⟩ := h
  intro heq
  obtain ⟨rfl, -⟩ := List.cons.inj (List.append_cancel_left heq)
  exact List.lt_irrefl _ hlt

theorem Precedes.asymm {way other : List FileName} (h : Precedes way other) : ¬ Precedes other way := by
  obtain ⟨front, name, next, rest, more, rfl, rfl, hlt⟩ := h
  rintro ⟨back, first, second, tail, last, hother, hway, hlt'⟩
  induction front generalizing back with
  | nil =>
    cases back with
    | nil =>
      obtain ⟨rfl, -⟩ := List.cons.inj hother
      obtain ⟨rfl, -⟩ := List.cons.inj hway
      exact List.lt_asymm hlt hlt'
    | cons head back =>
      obtain ⟨rfl, -⟩ := List.cons.inj hother
      obtain ⟨rfl, -⟩ := List.cons.inj hway
      exact List.lt_irrefl _ hlt
  | cons head front ih =>
    cases back with
    | nil =>
      obtain ⟨rfl, -⟩ := List.cons.inj hother
      obtain ⟨rfl, -⟩ := List.cons.inj hway
      exact List.lt_irrefl _ hlt'
    | cons other back =>
      exact ih back (List.cons.inj hother).2 (List.cons.inj hway).2

/-! ## Hidden names -/

/-- The name is a text that starts with a dot. -/
def IsDotted (name : FileName) : Prop := ∃ text, Text.encode ('.' :: text) = name

/-- **Hidden names are the texts that start with a dot.** -/
theorem isHidden_iff {name : FileName} : isHidden name = true ↔ IsDotted name := by
  rw [isHidden, Option.any_eq_true]
  constructor
  · rintro ⟨text, htext, hdot⟩
    obtain ⟨rest, rfl⟩ := List.head?_eq_some_iff.1 (beq_iff_eq.1 hdot)
    exact ⟨rest, Text.decode?_eq_some_iff.1 htext⟩
  · rintro ⟨rest, hname⟩
    exact ⟨'.' :: rest, Text.decode?_eq_some_iff.2 hname, rfl⟩

theorem isHidden_eq_false_iff {name : FileName} : isHidden name = false ↔ ¬ IsDotted name := by
  rw [← isHidden_iff, Bool.not_eq_true]

instance (name : FileName) : Decidable (IsDotted name) := decidable_of_iff _ isHidden_iff

/-! ## Ways below a node -/

namespace Node

/-- The names lead from a node at a path to a file, and none of them is a text that starts with a dot. -/
structure Shows (node : Node) (path : Path) (names : List FileName) (file : FoundFile) : Prop where
  at_names : node.at? names = some file.node
  visible : ∀ name ∈ names, ¬ IsDotted name
  path_eq : file.path = names.foldl Path.join path

mutual

/-- The visible files, each with the names that lead to it. -/
def visibleWays (path : Path) : Node → List (Location × FoundFile)
  | .file content dates => [([], ⟨path, content, dates⟩)]
  | .link _ => []
  | .directory _ entries => if Path.isTooLong path then [] else waysOfEntries path entries

def waysOfEntries (path : Path) : List (FileName × Node) → List (Location × FoundFile)
  | [] => []
  | (name, node) :: rest =>
    (if isHidden name then []
      else (node.visibleWays (Path.join path name)).map (Prod.map (name :: ·) id)) ++
      waysOfEntries path rest

end

mutual

theorem map_visibleWays : (node : Node) → (path : Path) →
    (node.visibleWays path).map Prod.snd = node.visibleFiles path
  | .file _ _, _ => rfl
  | .link _, _ => rfl
  | .directory _ entries, path => by
    rw [visibleWays, visibleFiles]
    split
    · rfl
    · exact map_waysOfEntries entries path

theorem map_waysOfEntries : (entries : List (FileName × Node)) → (path : Path) →
    (waysOfEntries path entries).map Prod.snd = visibleEntries path entries
  | [], _ => rfl
  | (name, node) :: rest, path => by
    rw [waysOfEntries, visibleEntries, List.map_append, map_waysOfEntries rest path]
    split
    · rfl
    · rw [← map_visibleWays node (Path.join path name), List.map_map]
      rfl

end

theorem Shows.cons {info : DirectoryInfo} {entries : List (FileName × Node)} {path : Path} {name : FileName}
    {child : Node} {names : List FileName} {file : FoundFile}
    (hfind : Fields.find? name entries = some child) (hname : ¬ IsDotted name)
    (h : child.Shows (Path.join path name) names file) :
    (directory info entries).Shows path (name :: names) file where
  at_names := by
    rw [at?, Node.entries, hfind]
    exact h.at_names
  visible := List.forall_mem_cons.2 ⟨hname, h.visible⟩
  path_eq := h.path_eq

/-- What a directory shows, one of its entries shows. -/
theorem Shows.of_directory {info : DirectoryInfo} {entries : List (FileName × Node)} {path : Path}
    {names : List FileName} {file : FoundFile} (h : (directory info entries).Shows path names file) :
    ∃ name child more, names = name :: more ∧ Fields.find? name entries = some child ∧
      ¬ IsDotted name ∧ child.Shows (Path.join path name) more file := by
  cases names with
  | nil =>
    have hnode := h.at_names
    cases hnode
  | cons name more =>
    have hat := h.at_names
    rw [at?] at hat
    obtain ⟨child, hfind, hchild⟩ := Option.bind_eq_some_iff.1 hat
    obtain ⟨hname, hmore⟩ := List.forall_mem_cons.1 h.visible
    exact ⟨name, child, more, rfl, hfind, hname, hchild, hmore, h.path_eq⟩

theorem Shows.ne_link {node : Node} {path : Path} {names : List FileName} {file : FoundFile}
    (h : node.Shows path names file) (target : Path) : node ≠ .link target := by
  rintro rfl
  have hnone := h.at_names
  cases names with
  | nil => cases hnone
  | cons name names => cases hnone

mutual

/-- What is visible is shown. -/
theorem shows_of_mem : (node : Node) → {path : Path} → {names : List FileName} → {found : FoundFile} →
    node.WellFormed → (names, found) ∈ node.visibleWays path → node.Shows path names found
  | .file content dates, path, names, found, _, h => by
    obtain ⟨rfl, rfl⟩ := Prod.mk.inj (List.mem_singleton.1 h)
    exact ⟨rfl, by simp, rfl⟩
  | .link _, _, _, _, _, h => by cases h
  | .directory info entries, path, names, found, hwell, h => by
    rw [visibleWays] at h
    split at h
    case isTrue => cases h
    case isFalse =>
      obtain ⟨name, child, more, rfl, hmem, hname, hchild⟩ := shows_of_mem_entries entries hwell.2 h
      exact hchild.cons (Fields.find?_of_mem hwell.1 hmem) (isHidden_eq_false_iff.1 hname)

theorem shows_of_mem_entries : (entries : List (FileName × Node)) → {path : Path} →
    {names : List FileName} → {found : FoundFile} → EntriesWellFormed entries →
    (names, found) ∈ waysOfEntries path entries →
    ∃ name child more, names = name :: more ∧ (name, child) ∈ entries ∧ isHidden name = false ∧
      child.Shows (Path.join path name) more found
  | [], _, _, _, _, h => by cases h
  | (name, node) :: rest, path, names, found, hwell, h => by
    rw [waysOfEntries] at h
    rcases List.mem_append.1 h with h | h
    · split at h
      case isTrue => cases h
      case isFalse hname =>
        obtain ⟨⟨more, inner⟩, hmem, heq⟩ := List.mem_map.1 h
        obtain ⟨rfl, rfl⟩ := Prod.mk.inj heq
        have hshows := shows_of_mem node hwell.2.1 hmem
        exact ⟨name, node, more, rfl, List.mem_cons_self, by simpa using hname, hshows⟩
    · obtain ⟨first, child, more, hnames, hmem, hrest⟩ := shows_of_mem_entries rest hwell.2.2 h
      exact ⟨first, child, more, hnames, List.mem_cons_of_mem _ hmem, hrest⟩

end

theorem mem_waysOfEntries {entries : List (FileName × Node)} {path : Path} {name : FileName} {child : Node}
    {names : List FileName} {file : FoundFile} (hmem : (name, child) ∈ entries)
    (hname : isHidden name = false) (h : (names, file) ∈ child.visibleWays (Path.join path name)) :
    (name :: names, file) ∈ waysOfEntries path entries := by
  induction entries with
  | nil => cases hmem
  | cons entry rest ih =>
    rw [waysOfEntries, List.mem_append]
    rcases List.mem_cons.1 hmem with rfl | hmem
    · left
      rw [hname]
      exact List.mem_map.2 ⟨(names, file), h, rfl⟩
    · exact .inr (ih hmem)

/-- What is shown under a path that can be read is visible. -/
theorem mem_of_shows {node : Node} {path : Path} {names : List FileName} {file : FoundFile}
    (h : node.Shows path names file) (hlong : ¬ Path.isTooLong file.path = true) :
    (names, file) ∈ node.visibleWays path := by
  induction names generalizing node path with
  | nil =>
    obtain ⟨path, content, dates⟩ := file
    obtain rfl : node = .file content dates := Option.some.inj h.at_names
    obtain rfl := h.path_eq
    exact List.mem_singleton_self _
  | cons name names ih =>
    cases node with
    | directory info entries =>
      obtain ⟨first, child, more, hnames, hfind, hname, hchild⟩ := h.of_directory
      obtain ⟨rfl, rfl⟩ := List.cons.inj hnames
      have hpath : ¬ Path.isTooLong path = true := by
        rw [h.path_eq] at hlong
        exact Path.not_isTooLong_of_foldl_join hlong
      rw [visibleWays, if_neg hpath]
      exact mem_waysOfEntries (Fields.mem_of_find? hfind) (isHidden_eq_false_iff.2 hname) (ih hchild)
    | _ =>
      have hnone := h.at_names
      cases hnone

mutual

theorem pairwise_visibleWays : (node : Node) → {path : Path} → node.WellFormed →
    (node.visibleWays path).Pairwise fun a b => Precedes a.1 b.1
  | .file _ _, _, _ => List.pairwise_singleton _ _
  | .link _, _, _ => List.Pairwise.nil
  | .directory _ entries, _, hwell => by
    rw [visibleWays]
    split
    · exact List.Pairwise.nil
    · exact pairwise_waysOfEntries entries hwell.1 hwell.2

theorem pairwise_waysOfEntries : (entries : List (FileName × Node)) → {path : Path} →
    Fields.Ascending entries → EntriesWellFormed entries →
    (waysOfEntries path entries).Pairwise fun a b => Precedes a.1 b.1
  | [], _, _, _ => List.Pairwise.nil
  | (name, node) :: rest, path, hascending, hwell => by
    rw [Fields.Ascending, Fields.names, List.map_cons, List.pairwise_cons] at hascending
    have hrest : (waysOfEntries path rest).Pairwise fun a b => Precedes a.1 b.1 :=
      pairwise_waysOfEntries rest hascending.2 hwell.2.2
    rw [waysOfEntries]
    split
    · exact hrest
    · refine List.pairwise_append.2 ⟨?_, hrest, ?_⟩
      · rw [List.pairwise_map]
        exact (pairwise_visibleWays node hwell.2.1).imp fun h => h.cons name
      · intro a ha b hb
        obtain ⟨_, _, rfl⟩ := List.mem_map.1 ha
        obtain ⟨names, file⟩ := b
        obtain ⟨next, child, more, rfl, hmem, -⟩ := shows_of_mem_entries rest hwell.2.2 hb
        exact .of_lt (hascending.1 next (List.mem_map_of_mem hmem)) _ _

end

end Node

/-! ## Ways below a scope -/

namespace FileTree

variable {t : FileTree} {scope : Path}

/-- What stands at a scope, where a link to a directory stands for the directory. -/
def scopeNode? (t : FileTree) (scope : Path) : Option Node :=
  match t.standing? scope with
  | some (.link _) => (t.node? scope).filter Node.isDirectory
  | other => other

/-- The scope shows a file, to which the names lead. -/
def Shows (t : FileTree) (scope : Path) (names : List FileName) (file : FoundFile) : Prop :=
  ∃ node, t.scopeNode? scope = some node ∧ node.Shows scope names file

/-- A list of the files that a scope shows and that pass a test, depth first and by the bytes of the
names. -/
def Lists (t : FileTree) (scope : Path) (test : FoundFile → Bool) (files : List FoundFile) : Prop :=
  ∃ found : List (Location × FoundFile), found.map Prod.snd = files ∧
    (found.Pairwise fun a b => Precedes a.1 b.1) ∧
    ∀ names file, (names, file) ∈ found ↔ t.Shows scope names file ∧ test file = true

def visibleWays (t : FileTree) (scope : Path) : List (Location × FoundFile) :=
  (t.scopeNode? scope).elim [] (Node.visibleWays scope)

theorem scope_ne_empty {node : Node} (h : t.scopeNode? scope = some node) : scope ≠ [] := by
  rintro rfl
  cases h

theorem eq_or_eq_of_scopeNode? {node : Node} (h : t.scopeNode? scope = some node) :
    t.node? scope = some node ∨ t.standing? scope = some node := by
  rw [scopeNode?] at h
  split at h
  · exact .inl (Option.filter_eq_some_iff.1 h).1
  · exact .inr h

theorem wellFormed_scopeNode? {node : Node} (h : t.scopeNode? scope = some node) :
    node.WellFormed := by
  have hnode := eq_or_eq_of_scopeNode? h
  rw [node?, standing?] at hnode
  rcases hnode with hnode | hnode <;> split at hnode
  case inl.isTrue | inr.isTrue => cases hnode
  case inl.isFalse | inr.isFalse =>
    obtain ⟨_, -, hat⟩ := Option.bind_eq_some_iff.1 hnode
    exact wellFormed_at? hat

theorem map_visibleWays (t : FileTree) (scope : Path) :
    (t.visibleWays scope).map Prod.snd = t.visibleFiles scope := by
  rw [visibleWays, visibleFiles, scopeNode?]
  cases hstanding : t.standing? scope with
  | none => rfl
  | some node =>
    cases node with
    | file content dates => exact Node.map_visibleWays _ scope
    | directory info entries => exact Node.map_visibleWays _ scope
    | link target =>
      dsimp only
      cases hnode : t.node? scope with
      | none => rfl
      | some node =>
        cases node with
        | directory info entries =>
          have hlong : ¬ Path.isTooLong scope = true := by
            intro hlong
            rw [node?, if_pos hlong] at hnode
            cases hnode
          have hways := Node.map_visibleWays (.directory info entries) scope
          rw [Node.visibleFiles, if_neg hlong] at hways
          exact hways
        | _ => rfl

theorem shows_of_mem {names : List FileName} {file : FoundFile} (h : (names, file) ∈ t.visibleWays scope) :
    t.Shows scope names file := by
  rw [visibleWays] at h
  cases hnode : t.scopeNode? scope with
  | none =>
    rw [hnode] at h
    cases h
  | some node =>
    rw [hnode] at h
    exact ⟨node, hnode, Node.shows_of_mem node (wellFormed_scopeNode? hnode) h⟩

theorem mem_of_shows {names : List FileName} {file : FoundFile} (h : t.Shows scope names file)
    (hlong : ¬ Path.isTooLong file.path = true) : (names, file) ∈ t.visibleWays scope := by
  obtain ⟨node, hnode, hshows⟩ := h
  rw [visibleWays, hnode]
  exact Node.mem_of_shows hshows hlong

theorem pairwise_visibleWays (t : FileTree) (scope : Path) :
    (t.visibleWays scope).Pairwise fun a b => Precedes a.1 b.1 := by
  rw [visibleWays]
  cases hnode : t.scopeNode? scope with
  | none => exact List.Pairwise.nil
  | some node => exact Node.pairwise_visibleWays node (wellFormed_scopeNode? hnode)

/-- **The visible files are the files that are shown.** -/
theorem lists_visibleFiles (t : FileTree) (scope : Path) :
    t.Lists scope (fun file => !Path.isTooLong file.path)
      ((t.visibleFiles scope).filter fun file => !Path.isTooLong file.path) := by
  refine ⟨(t.visibleWays scope).filter fun found => !Path.isTooLong found.2.path, ?_, ?_, ?_⟩
  · rw [← map_visibleWays, List.filter_map]
    rfl
  · exact (pairwise_visibleWays t scope).filter _
  · intro names file
    rw [List.mem_filter]
    constructor
    · rintro ⟨hmem, hlong⟩
      exact ⟨shows_of_mem hmem, hlong⟩
    · rintro ⟨hshows, hlong⟩
      exact ⟨mem_of_shows hshows (by simpa using hlong), hlong⟩

theorem Lists.filter {test : FoundFile → Bool} {files : List FoundFile} (h : t.Lists scope test files)
    (more : FoundFile → Bool) :
    t.Lists scope (fun file => test file && more file) (files.filter more) := by
  obtain ⟨found, rfl, hpairwise, hmem⟩ := h
  refine ⟨found.filter fun way => more way.2, ?_, hpairwise.filter _, fun names file => ?_⟩
  · rw [List.filter_map]
    rfl
  · rw [List.mem_filter, hmem, Bool.and_eq_true, and_assoc]

theorem Lists.mem_iff {test : FoundFile → Bool} {files : List FoundFile} (h : t.Lists scope test files)
    {file : FoundFile} : file ∈ files ↔ (∃ names, t.Shows scope names file) ∧ test file = true := by
  obtain ⟨found, rfl, -, hmem⟩ := h
  constructor
  · intro hfile
    obtain ⟨⟨names, file⟩, hway, rfl⟩ := List.mem_map.1 hfile
    exact ⟨⟨names, ((hmem names file).1 hway).1⟩, ((hmem names file).1 hway).2⟩
  · rintro ⟨⟨names, hshows⟩, htest⟩
    exact List.mem_map_of_mem (f := Prod.snd) ((hmem names file).2 ⟨hshows, htest⟩)

/-- The order leaves no choice: there is one such list. -/
theorem Lists.unique {test : FoundFile → Bool} {files others : List FoundFile}
    (h : t.Lists scope test files) (hother : t.Lists scope test others) : files = others := by
  obtain ⟨found, rfl, hpairwise, hmem⟩ := h
  obtain ⟨more, rfl, hpairwise', hmem'⟩ := hother
  have hnodup : ∀ {ways : List (Location × FoundFile)},
      (ways.Pairwise fun a b => Precedes a.1 b.1) → ways.Nodup := fun hways =>
    hways.imp fun hprecedes heq => hprecedes.ne (congrArg Prod.fst heq)
  have hperm : found.Perm more :=
    (List.perm_ext_iff_of_nodup (hnodup hpairwise) (hnodup hpairwise')).2 fun way =>
      (hmem way.1 way.2).trans (hmem' way.1 way.2).symm
  rw [hperm.eq_of_pairwise (fun a b _ _ hab hba => absurd hba hab.asymm) hpairwise hpairwise']

/-! ## No repetitions -/

theorem Shows.identity_path {names : List FileName} {file : FoundFile} (h : t.Shows scope names file) :
    Path.identity file.path = Path.identity scope ++ names := by
  obtain ⟨node, hnode, hshows⟩ := h
  have hnames := Node.isName_of_at? (wellFormed_scopeNode? hnode) hshows.at_names
  rw [hshows.path_eq, Path.identity_foldl_join (scope_ne_empty hnode) hnames]

theorem nodup_identity_visibleFiles (t : FileTree) (scope : Path) :
    (t.visibleFiles scope).Pairwise fun a b => Path.identity a.path ≠ Path.identity b.path := by
  rw [← map_visibleWays, List.pairwise_map]
  refine (pairwise_visibleWays t scope).imp_of_mem ?_
  rintro ⟨names, file⟩ ⟨others, other⟩ hfile hother hprecedes heq
  rw [(shows_of_mem hfile).identity_path, (shows_of_mem hother).identity_path] at heq
  exact hprecedes.ne (List.append_cancel_left heq)

/-! ## Where shown files are -/

theorem location?_scope {node : Node} (h : t.scopeNode? scope = some node)
    (hlink : ∀ target, node ≠ .link target) :
    ∃ here, t.location? scope = some here ∧ t.at? here = some node := by
  rcases eq_or_eq_of_scopeNode? h with hnode | hnode
  · rw [node?] at hnode
    split at hnode
    case isTrue => cases hnode
    case isFalse => exact Option.bind_eq_some_iff.1 hnode
  · rw [standing?] at hnode
    split at hnode
    case isTrue => cases hnode
    case isFalse hne =>
      rw [not_or] at hne
      obtain ⟨here, hfollow, hat⟩ := Option.bind_eq_some_iff.1 hnode
      -- The walk that keeps a last link kept none here.
      refine ⟨here, ?_, hat⟩
      rw [location?, if_neg hne.1]
      rcases route_of_follow hfollow with hroute | ⟨-, target, htarget⟩
      · exact follow_of_route hroute
      · rw [hat] at htarget
        exact absurd (Option.some.inj htarget) (hlink target)

theorem location?_of_node {node : Node} {path : Path} {here : Location} {names : List FileName}
    {file : FoundFile} (hpath : t.location? path = some here) (hat : t.at? here = some node)
    (h : node.Shows path names file) :
    t.location? file.path = some (here ++ names) ∧ t.at? (here ++ names) = some file.node := by
  induction names generalizing node path here with
  | nil =>
    obtain rfl := Option.some.inj h.at_names
    rw [List.append_nil, h.path_eq]
    exact ⟨hpath, hat⟩
  | cons name names ih =>
    cases node with
    | directory info entries =>
      obtain ⟨first, child, more, hnames, hfind, -, hchild⟩ := h.of_directory
      obtain ⟨rfl, rfl⟩ := List.cons.inj hnames
      have hname := (Node.entriesWellFormed_iff.1 (wellFormed_at? hat).2 _ (Fields.mem_of_find? hfind)).1
      have hinner := ih (location?_join hpath hat hname hfind hchild.ne_link) (at?_child hat hfind) hchild
      rwa [List.append_assoc] at hinner
    | _ =>
      have hnone := h.at_names
      cases hnone

/-- **A shown file is at its names below the location of the scope.** -/
theorem Shows.location? {names : List FileName} {file : FoundFile} (h : t.Shows scope names file) :
    ∃ here, t.location? scope = some here ∧ t.location? file.path = some (here ++ names) ∧
      t.at? (here ++ names) = some file.node := by
  obtain ⟨node, hnode, hshows⟩ := h
  obtain ⟨here, hhere, hat⟩ := location?_scope hnode hshows.ne_link
  exact ⟨here, hhere, location?_of_node hhere hat hshows⟩

/-- A shown file is what its path leads to. -/
theorem Shows.node?_path {names : List FileName} {file : FoundFile} (h : t.Shows scope names file)
    (hlong : Path.isTooLong file.path = false) : t.node? file.path = some file.node := by
  obtain ⟨here, -, hlocation, hat⟩ := h.location?
  rw [node?, hlong, hlocation]
  exact hat

theorem exists_shows_of_visibleFiles {file : FoundFile} (h : file ∈ t.visibleFiles scope) :
    ∃ names, t.Shows scope names file := by
  rw [← map_visibleWays] at h
  obtain ⟨⟨names, found⟩, hmem, rfl⟩ := List.mem_map.1 h
  exact ⟨names, shows_of_mem hmem⟩

end FileTree

end MetadataSearch
