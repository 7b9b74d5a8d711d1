import MetadataSearch.FileTree.Visible
import MetadataSearch.Proofs.Fields.Lookup
import MetadataSearch.Proofs.FileTree.Route

/-!
# Paths of entries

The path of an entry of a directory is the path of the directory, joined with a name.

**Theorem (`location?_join`).** It leads to the child of the location to which the path of the directory
leads, unless the entry is a link. It has the steps of the path of the directory and one more, down to
the name (`steps_join`); since the entry is no link, this step passes none.

A path gets longer with every name (`length_le_join`), and its identity gets just the name
(`identity_join`).
-/

namespace MetadataSearch

namespace Path

/-! ## Names in a path -/

/-- What a path can lead down to: all of it stands between two slashes, and it is no dots. -/
def IsPlain (name : FileName) : Prop :=
  name ≠ [] ∧ name ≠ [dot] ∧ name ≠ [dot, dot] ∧ slash ∉ name

end Path

theorem Node.IsName.isPlain {name : FileName} (h : IsName name) : Path.IsPlain name :=
  ⟨h.1, h.2.1, h.2.2.1, h.2.2.2.1⟩

namespace Path

theorem parts_append_slash (front back : Path) :
    parts (front ++ slash :: back) = parts front ++ parts back :=
  List.splitOn_append_cons_self front back

theorem parts_of_isPlain {name : FileName} (h : IsPlain name) : parts name = [name] :=
  List.splitOn_eq_singleton h.2.2.2

theorem ofPart_of_isPlain {name : FileName} (h : IsPlain name) : Step.ofPart name = .down name := by
  rw [Step.ofPart, if_neg, if_neg h.2.2.1]
  exact fun hor => hor.elim h.1 h.2.1

/-! ## Paths of entries -/

/-- One slash stands before the name, which may have been the last of the path. -/
theorem exists_join_eq (path : Path) (name : FileName) :
    ∃ front, (path = front ∨ path = front ++ [slash]) ∧ join path name = front ++ slash :: name := by
  by_cases hslash : path.getLast? = some slash
  · obtain ⟨front, hfront⟩ := List.getLast?_eq_some_iff.1 hslash
    refine ⟨front, .inr hfront, ?_⟩
    rw [join, if_pos (by rw [hslash]; rfl), hfront, List.append_assoc]
    rfl
  · exact ⟨path, .inl rfl, by rw [join, if_neg (by simpa using hslash)]⟩

theorem join_ne_empty (path : Path) (name : FileName) : join path name ≠ [] := by
  obtain ⟨front, -, hjoin⟩ := exists_join_eq path name
  rw [hjoin]
  exact List.append_ne_nil_of_right_ne_nil front (List.cons_ne_nil _ _)

theorem isAbsolute_join {path : Path} (name : FileName) (h : path ≠ []) :
    isAbsolute (join path name) = isAbsolute path := by
  obtain ⟨front, hpath, hjoin⟩ := exists_join_eq path name
  rw [isAbsolute, isAbsolute, hjoin]
  cases front with
  | nil =>
    rcases hpath with hpath | hpath
    · exact absurd hpath h
    · rw [hpath]
      rfl
  | cons b front => rcases hpath with hpath | hpath <;> (rw [hpath]; rfl)

theorem parts_ne_nil (path : Path) : parts path ≠ [] := List.splitOn_ne_nil slash path

/-- A path that ends with a slash has one part more than its name, which is empty. -/
theorem parts_join (path : Path) {name : FileName} (h : Node.IsName name) :
    ∃ front, front ≠ [] ∧ (parts path = front ∨ parts path = front ++ [[]]) ∧
      parts (join path name) = front ++ [name] := by
  obtain ⟨front, hpath, hjoin⟩ := exists_join_eq path name
  refine ⟨parts front, parts_ne_nil _, ?_, ?_⟩
  · rcases hpath with rfl | rfl
    · exact .inl rfl
    · exact .inr (parts_append_slash front [])
  · rw [hjoin, parts_append_slash, parts_of_isPlain h.isPlain]

/-- A path that ends with a slash has one step more than its name, which is to stay. -/
theorem steps_join (path : Path) {name : FileName} (h : Node.IsName name) :
    ∃ front, (steps path = front ∨ steps path = front ++ [.stay]) ∧
      steps (join path name) = front ++ [.down name] := by
  obtain ⟨front, -, hpath, hjoin⟩ := parts_join path h
  refine ⟨front.map Step.ofPart, ?_, ?_⟩
  · rw [steps]
    rcases hpath with hpath | hpath
    · exact .inl (by rw [hpath])
    · exact .inr (by rw [hpath, List.map_append]; rfl)
  · rw [steps, hjoin, List.map_append, List.map_singleton, ofPart_of_isPlain h.isPlain]

/-! ## Length and identity -/

theorem length_le_join (path : Path) (name : FileName) :
    path.length + name.length ≤ (join path name).length := by
  rw [join]
  split
  · simp
  · simp only [List.length_append, List.length_cons]
    omega

theorem isTooLong_iff (path : Path) : isTooLong path = true ↔ 4096 ≤ path.length := decide_eq_true_iff

theorem not_isTooLong_of_join {path : Path} {name : FileName}
    (h : ¬ isTooLong (join path name) = true) : ¬ isTooLong path = true := by
  have hsize := length_le_join path name
  rw [isTooLong_iff] at h ⊢
  omega

theorem not_isTooLong_of_foldl_join {path : Path} {names : List FileName}
    (h : ¬ isTooLong (names.foldl join path) = true) : ¬ isTooLong path = true := by
  induction names generalizing path with
  | nil => exact h
  | cons name names ih => exact not_isTooLong_of_join (ih h)

theorem segments_join (path : Path) {name : FileName} (h : Node.IsName name) :
    segments (join path name) = segments path ++ [name] := by
  obtain ⟨front, -, hpath, hjoin⟩ := parts_join path h
  have hlast : [name].filter (fun part => part != [] && part != [dot]) = [name] := by
    simp [h.1, h.2.1]
  rw [segments, segments, hjoin, List.filter_append, hlast]
  rcases hpath with hpath | hpath <;> simp [hpath]

theorem fileName?_join (path : Path) {name : FileName} (h : Node.IsName name) :
    fileName? (join path name) = some name := by
  rw [fileName?, segments_join path h, List.getLast?_concat]
  simp [Option.filter, h.2.2.1]

theorem head?_parts_join (path : Path) {name : FileName} (h : Node.IsName name) :
    (parts (join path name)).head? = (parts path).head? := by
  obtain ⟨front, hne, hpath, hjoin⟩ := parts_join path h
  obtain ⟨first, rest, rfl⟩ := List.exists_cons_of_ne_nil hne
  rw [hjoin]
  rcases hpath with hpath | hpath <;> rw [hpath] <;> rfl

theorem identity_join {path : Path} {name : FileName} (hne : path ≠ []) (h : Node.IsName name) :
    identity (join path name) = identity path ++ [name] := by
  rw [identity, identity, isAbsolute_join name hne, segments_join path h, head?_parts_join path h]
  split
  · rfl
  · split <;> rfl

theorem identity_foldl_join {path : Path} {names : List FileName} (hne : path ≠ [])
    (h : ∀ name ∈ names, Node.IsName name) :
    identity (names.foldl join path) = identity path ++ names := by
  induction names generalizing path with
  | nil => exact (List.append_nil _).symm
  | cons name names ih =>
    have hrest := ih (join_ne_empty path name) fun other hother => h other (List.mem_cons_of_mem _ hother)
    rw [List.foldl_cons, hrest, identity_join hne (h name List.mem_cons_self), List.append_assoc]
    rfl

end Path

/-! ## Nodes at locations -/

namespace Node

theorem wellFormed_at? {node child : Node} {location : Location} (h : node.WellFormed)
    (hat : node.at? location = some child) : child.WellFormed := by
  induction location generalizing node with
  | nil =>
    obtain rfl := Option.some.inj hat
    exact h
  | cons name location ih =>
    rw [at?] at hat
    cases node with
    | directory info entries =>
      obtain ⟨inner, hfind, hinner⟩ := Option.bind_eq_some_iff.1 hat
      exact ih (entriesWellFormed_iff.1 h.2 _ (Fields.mem_of_find? hfind)).2 hinner
    | _ => cases hat

end Node

namespace FileTree

open MetadataSearch.Path (Step)

variable {t : FileTree}

/-- The path of an entry leads to the entry. -/
theorem location?_join {path : Path} {name : FileName} {here : Location} {info : DirectoryInfo}
    {entries : List (FileName × Node)} {node : Node} (h : t.location? path = some here)
    (hdir : t.at? here = some (.directory info entries)) (hname : Node.IsName name)
    (hfind : Fields.find? name entries = some node) (hnode : ∀ target, node ≠ .link target) :
    t.location? (Path.join path name) = some (here ++ [name]) := by
  have hlast : Route t anywhere 0 here [.down name] (here ++ [name]) :=
    .down hdir rfl hfind hnode .nil
  rw [location?] at h
  split at h
  case isTrue => cases h
  case isFalse hne =>
    rw [location?, if_neg (Path.join_ne_empty path name), start, Path.isAbsolute_join name hne]
    obtain ⟨front, hpath, hjoin⟩ := Path.steps_join path hname
    have hfront : Route t anywhere linkLimit (t.start path) front here := by
      have hroute := follow_eq_some_iff.1 h
      rcases hpath with hpath | hpath
      · rw [← hpath]
        exact hroute
      · rw [hpath] at hroute
        exact hroute.of_append_stay
    rw [hjoin]
    exact follow_of_route (hfront.append hlast)

theorem wellFormed_at? {location : Location} {node : Node} (h : t.at? location = some node) :
    node.WellFormed :=
  Node.wellFormed_at? t.wellFormed h

end FileTree

end MetadataSearch
