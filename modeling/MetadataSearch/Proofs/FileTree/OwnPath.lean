import Mathlib.Data.List.Induction
import MetadataSearch.FileTree.Containment
import MetadataSearch.Proofs.FileTree.EntryPaths
import MetadataSearch.Proofs.FileTree.Route

/-!
# The path of a location

**Theorem (`canonical?_ofLocation`).** The path written for a direct location leads there: it is its own
canonical form.

The names on the way to a node are names of entries, so they hold no slash and are no dots. The path
therefore has one step down for each of them, after one step that stays at the root. The path of an entry
of the directory there is again the path of a location (`Path.join_ofLocation`).

Only links and long paths keep a location from being direct (`direct_of_at?`).
-/

namespace MetadataSearch

open MetadataSearch.Path (Step)

namespace Node

theorem isName_of_at? {node child : Node} {location : Location} (h : node.WellFormed)
    (hat : node.at? location = some child) : ∀ name ∈ location, IsName name := by
  induction location generalizing node with
  | nil =>
    intro name hname
    cases hname
  | cons first location ih =>
    rw [at?] at hat
    cases node with
    | directory info entries =>
      obtain ⟨inner, hfind, hinner⟩ := Option.bind_eq_some_iff.1 hat
      have hentry := entriesWellFormed_iff.1 h.2 _ (Fields.mem_of_find? hfind)
      intro name hname
      rcases List.mem_cons.1 hname with rfl | hname
      · exact hentry.1
      · exact ih hentry.2 hinner name hname
    | _ => cases hat

end Node

namespace Path

/-- Names with slashes between them are the parts of the path. -/
theorem parts_intercalate {names : List FileName} (hne : names ≠ [])
    (hnames : ∀ name ∈ names, IsPlain name) : parts ([slash].intercalate names) = names := by
  induction names with
  | nil => exact absurd rfl hne
  | cons name names ih =>
    have hname := hnames name List.mem_cons_self
    by_cases hrest : names = []
    · rw [hrest, List.intercalate_singleton, parts_of_isPlain hname]
    · have hjoin : [slash].intercalate (name :: names) = name ++ slash :: [slash].intercalate names := by
        rw [List.intercalate_cons_of_ne_nil hrest, List.append_assoc]
        rfl
      rw [hjoin, parts_append_slash, parts_of_isPlain hname,
        ih hrest fun other hother => hnames other (List.mem_cons_of_mem _ hother)]
      rfl

/-- The parts of the path of a location: empty ones, then its names. -/
theorem parts_ofLocation {location : Location} (hnames : ∀ name ∈ location, IsPlain name) :
    ∃ empties, (∀ part ∈ empties, part = []) ∧ parts (ofLocation location) = empties ++ location := by
  have hroot : parts (ofLocation location) = [] :: parts ([slash].intercalate location) :=
    parts_append_slash [] ([slash].intercalate location)
  rw [hroot]
  by_cases hne : location = []
  · refine ⟨[[], []], by simp, ?_⟩
    rw [hne]
    rfl
  · rw [parts_intercalate hne hnames]
    exact ⟨[[]], by simp, rfl⟩

/-- The steps of the path of a location: none that matters, then down to each name. -/
theorem steps_ofLocation {location : Location} (hnames : ∀ name ∈ location, IsPlain name) :
    ∃ still, (∀ step ∈ still, step = Step.stay) ∧
      steps (ofLocation location) = still ++ location.map .down := by
  obtain ⟨empties, hempties, hparts⟩ := parts_ofLocation hnames
  have hdown : location.map Step.ofPart = location.map .down :=
    List.map_congr_left fun name hname => ofPart_of_isPlain (hnames name hname)
  refine ⟨empties.map Step.ofPart, ?_, by rw [steps, hparts, List.map_append, hdown]⟩
  intro step hstep
  obtain ⟨part, hpart, rfl⟩ := List.mem_map.1 hstep
  rw [hempties part hpart]
  rfl

theorem isAbsolute_ofLocation (location : Location) : isAbsolute (ofLocation location) = true := rfl

theorem ofLocation_ne_empty (location : Location) : ofLocation location ≠ [] := List.cons_ne_nil _ _

theorem intercalate_append {location : Location} (hne : location ≠ []) (name : FileName) :
    [slash].intercalate (location ++ [name]) = [slash].intercalate location ++ slash :: name := by
  induction location with
  | nil => exact absurd rfl hne
  | cons first rest ih =>
    by_cases hrest : rest = []
    · rw [hrest]
      simp
    · have hmore : rest ++ [name] ≠ [] := List.append_ne_nil_of_left_ne_nil hrest _
      rw [List.cons_append, List.intercalate_cons_of_ne_nil hmore, ih hrest,
        List.intercalate_cons_of_ne_nil hrest]
      simp only [List.append_assoc]

/-- The path of a location below the root does not end with a slash. -/
theorem getLast?_ofLocation {location : Location} (hne : location ≠ [])
    (hnames : ∀ name ∈ location, Node.IsName name) :
    (ofLocation location).getLast? ≠ some slash := by
  rcases List.eq_nil_or_concat location with hnil | ⟨outer, name, hlocation⟩
  · exact absurd hnil hne
  rw [List.concat_eq_append] at hlocation
  have hname : Node.IsName name := hnames name (by simp [hlocation])
  obtain ⟨front, hfront⟩ : ∃ front, ofLocation location = front ++ name := by
    by_cases houter : outer = []
    · exact ⟨[slash], by rw [hlocation, houter, ofLocation, List.nil_append, List.intercalate_singleton]; rfl⟩
    · refine ⟨slash :: ([slash].intercalate outer ++ [slash]), ?_⟩
      rw [hlocation, ofLocation, intercalate_append houter]
      simp
  rw [hfront, List.getLast?_append]
  cases hlast : name.getLast? with
  | none => exact absurd (List.getLast?_eq_none_iff.1 hlast) hname.1
  | some b =>
    intro hslash
    obtain rfl : b = slash := Option.some.inj hslash
    exact hname.2.2.2.1 (List.mem_of_getLast? hlast)

/-- The path of an entry is the path of its location. -/
theorem join_ofLocation {location : Location} (hnames : ∀ name ∈ location, Node.IsName name)
    (name : FileName) : join (ofLocation location) name = ofLocation (location ++ [name]) := by
  by_cases hne : location = []
  · rw [hne, List.nil_append, ofLocation, ofLocation, List.intercalate_singleton]
    rfl
  · have hlast : ¬ ((ofLocation location).getLast? == some slash) = true := by
      simpa using getLast?_ofLocation hne hnames
    rw [join, if_neg hlast, ofLocation, ofLocation, intercalate_append hne]
    rfl

theorem foldl_join_ofLocation {location names : Location}
    (hnames : ∀ name ∈ location ++ names, Node.IsName name) :
    names.foldl join (ofLocation location) = ofLocation (location ++ names) := by
  induction names generalizing location with
  | nil => rw [List.append_nil, List.foldl_nil]
  | cons name names ih =>
    have hlocation : ∀ other ∈ location, Node.IsName other := fun other hother =>
      hnames other (List.mem_append_left _ hother)
    have hsame : location ++ name :: names = (location ++ [name]) ++ names := by simp
    rw [hsame] at hnames ⊢
    rw [List.foldl_cons, join_ofLocation hlocation, ih hnames]

end Path

namespace FileTree

variable {t : FileTree}

theorem isName_of_at? {location : Location} {node : Node} (h : t.at? location = some node) :
    ∀ name ∈ location, Node.IsName name :=
  Node.isName_of_at? t.wellFormed h

/-- Staying at the root costs nothing. -/
theorem route_of_still {inReach : Location → Bool} {links : Nat} {still rest : List Step}
    {there : Location} (hstill : ∀ step ∈ still, step = Step.stay)
    (hrest : Route t inReach links [] rest there) : Route t inReach links [] (still ++ rest) there := by
  induction still with
  | nil => exact hrest
  | cons step still ih =>
    obtain rfl := hstill step List.mem_cons_self
    exact .stay rfl (ih fun other hother => hstill other (List.mem_cons_of_mem _ hother))

/-- **The path of a direct location is canonical.** -/
theorem canonical?_ofLocation {location : Location} {node : Node}
    (h : t.Direct underOwnPath location) (hat : t.at? location = some node) :
    t.canonical? (Path.ofLocation location) = some location := by
  obtain ⟨still, hstill, hsteps⟩ :=
    Path.steps_ofLocation fun name hname => (isName_of_at? hat name hname).isPlain
  rw [canonical?, if_neg (Path.ofLocation_ne_empty location), start,
    if_pos (Path.isAbsolute_ofLocation location), hsteps]
  exact follow_of_route (route_of_still hstill (h.mono_links (Nat.zero_le _)))

/-- What is no link and can be looked up under its own path is direct. -/
theorem direct_of_at? {location : Location} {node : Node} (hat : t.at? location = some node)
    (hlink : ∀ target, node ≠ .link target)
    (hlong : ¬ Path.isTooLong (Path.ofLocation location) = true) : t.Direct underOwnPath location := by
  induction location using List.reverseRecOn generalizing node with
  | nil => exact direct_nil
  | append_singleton outer name ih =>
    have hnames := isName_of_at? hat
    rw [at?, Node.at?_append] at hat
    obtain ⟨parent, hparent, hname⟩ := Option.bind_eq_some_iff.1 hat
    cases parent with
    | directory info entries =>
      obtain ⟨child, hfind, hchild⟩ := Option.bind_eq_some_iff.1 hname
      obtain rfl := Option.some.inj hchild
      have houter : ¬ Path.isTooLong (Path.ofLocation outer) = true := by
        rw [← Path.foldl_join_ofLocation hnames] at hlong
        exact Path.not_isTooLong_of_foldl_join hlong
      have hreach : underOwnPath (outer ++ [name]) = true := by simpa [underOwnPath] using hlong
      exact (ih hparent (by simp) houter).child hparent hreach hfind hlink
    | _ => cases hname

/-- The location of an absolute path that is canonical is direct. -/
theorem direct_of_canonical? {path : Path} {location : Location}
    (habs : Path.isAbsolute path = true) (h : t.canonical? path = some location) :
    t.Direct underOwnPath location :=
  direct_nil.of_route (route_of_canonical? habs h)

/-- An existing directory is given in its canonical form. -/
theorem canonical_of_scope {path : Path} {location : Location}
    (habs : Path.isAbsolute path = true) (h : t.scope path = .ok location) :
    t.canonical? path = some location ∧ t.canonical? (Path.ofLocation location) = some location ∧
      (t.at? location).any Node.isDirectory = true := by
  rw [scope] at h
  split at h
  case h_1 => cases h
  case h_2 reached hcanonical =>
    split at h
    case isFalse => cases h
    case isTrue hdir =>
      obtain rfl := Except.ok.inj h
      cases hat : t.at? reached with
      | none =>
        rw [hat] at hdir
        cases hdir
      | some node =>
        have hdirect := direct_of_canonical? habs hcanonical
        exact ⟨hcanonical, canonical?_ofLocation hdirect hat, hat ▸ hdir⟩

end FileTree

end MetadataSearch
