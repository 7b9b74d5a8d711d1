import MetadataSearch.FileTree

/-!
# Changing a file tree

Files, links and directories are put at a location, and taken away from it. Missing directories on
the way are made. Nothing is put below a file or a link, and a directory that is made again keeps its
entries. `FileTree.place` and `FileTree.remove?` keep a tree well-formed.
-/

namespace MetadataSearch

namespace Node

/-- Entries in which `put` has set the node at a location, given what stood there. Directories on the
way are made as `made` says. -/
def placeIn (made : DirectoryInfo) (put : Option Node → Node) :
    Location → List (FileName × Node) → List (FileName × Node)
  | [], entries => entries
  | [name], entries => Fields.insert name (put (Fields.find? name entries)) entries
  | name :: rest, entries =>
    match Fields.find? name entries with
    | none => Fields.insert name (.directory made (placeIn made put rest [])) entries
    | some (.directory info inner) =>
      Fields.insert name (.directory info (placeIn made put rest inner)) entries
    | some _ => entries

/-- Entries without what stands at a location. -/
def removeIn : Location → List (FileName × Node) → List (FileName × Node)
  | [], entries => entries
  | [name], entries => Fields.erase name entries
  | name :: rest, entries =>
    match Fields.find? name entries with
    | some (.directory info inner) =>
      Fields.insert name (.directory info (removeIn rest inner)) entries
    | _ => entries

/-! ## Well-formedness -/

theorem WellFormed.insert {info : DirectoryInfo} {entries : List (FileName × Node)} {name : FileName}
    {node : Node} (h : (directory info entries).WellFormed) (hname : IsName name)
    (hnode : node.WellFormed) :
    (directory info (Fields.insert name node entries)).WellFormed := by
  refine ⟨Fields.ascending_insert h.1, entriesWellFormed_iff.2 fun entry hmem => ?_⟩
  rcases Fields.mem_of_mem_insert hmem with rfl | hmem
  · exact ⟨hname, hnode⟩
  · exact entriesWellFormed_iff.1 h.2 entry hmem

theorem WellFormed.erase {info : DirectoryInfo} {entries : List (FileName × Node)} (name : FileName)
    (h : (directory info entries).WellFormed) :
    (directory info (Fields.erase name entries)).WellFormed :=
  ⟨Fields.ascending_erase h.1,
    entriesWellFormed_iff.2 fun entry hmem => entriesWellFormed_iff.1 h.2 entry (List.mem_filter.1 hmem).1⟩

theorem WellFormed.find {info : DirectoryInfo} {entries : List (FileName × Node)} {name : FileName}
    {node : Node} (h : (directory info entries).WellFormed)
    (hfind : Fields.find? name entries = some node) : node.WellFormed :=
  (entriesWellFormed_iff.1 h.2 _ (Fields.mem_of_find? hfind)).2

theorem wellFormed_nil (info : DirectoryInfo) : (directory info []).WellFormed := by
  simp [WellFormed, EntriesWellFormed, Fields.Ascending, Fields.names]

/-- What is known of a directory besides its entries does not matter. -/
theorem WellFormed.reinform {info : DirectoryInfo} {entries : List (FileName × Node)} (other : DirectoryInfo)
    (h : (directory info entries).WellFormed) : (directory other entries).WellFormed := h

theorem WellFormed.placeIn {made : DirectoryInfo} {put : Option Node → Node} {location : Location}
    {info : DirectoryInfo} {entries : List (FileName × Node)}
    (h : (directory info entries).WellFormed) (hnames : ∀ name ∈ location, IsName name)
    (hput : ∀ old, (∀ node ∈ old, WellFormed node) → (put old).WellFormed) :
    (directory info (placeIn made put location entries)).WellFormed := by
  fun_induction Node.placeIn made put location entries generalizing info with
  | case1 => exact h
  | case2 name entries =>
    exact h.insert (hnames name (by simp)) (hput _ fun node hnode => h.find hnode)
  | case3 name rest entries hne hfind ih =>
    exact h.insert (hnames name (by simp))
      (ih (wellFormed_nil made) fun n hn => hnames n (List.mem_cons_of_mem _ hn))
  | case4 name rest entries hne inside inner hfind ih =>
    exact h.insert (hnames name (by simp))
      (ih (h.find hfind) fun n hn => hnames n (List.mem_cons_of_mem _ hn))
  | case5 => exact h

theorem WellFormed.removeIn {location : Location} {info : DirectoryInfo}
    {entries : List (FileName × Node)} (h : (directory info entries).WellFormed)
    (hnames : ∀ name ∈ location, IsName name) :
    (directory info (removeIn location entries)).WellFormed := by
  fun_induction Node.removeIn location entries generalizing info with
  | case1 => exact h
  | case2 name entries => exact h.erase name
  | case3 name rest entries hne inside inner hfind ih =>
    exact h.insert (hnames name (by simp))
      (ih (h.find hfind) fun n hn => hnames n (List.mem_cons_of_mem _ hn))
  | case4 => exact h

end Node

namespace FileTree

/-- The tree in which `put` has set the node at a location. -/
def place (t : FileTree) (made : DirectoryInfo) (location : Location) (put : Option Node → Node)
    (hnames : ∀ name ∈ location, Node.IsName name)
    (hput : ∀ old, (∀ node ∈ old, Node.WellFormed node) → (put old).WellFormed) : FileTree :=
  { t with
    entries := Node.placeIn made put location t.entries
    wellFormed := t.wellFormed.placeIn hnames hput }

/-- Writes a file. Refuses a location with a name that is none. -/
def writeFile? (t : FileTree) (made : DirectoryInfo) (location : Location) (content : List UInt8)
    (dates : Dates) : Option FileTree :=
  if h : ∀ name ∈ location, Node.IsName name then
    some (t.place made location (fun _ => .file content dates) h
      fun _ _ => by simp [Node.WellFormed])
  else none

/-- Makes a link. Refuses an empty target and a location with a name that is none. -/
def makeLink? (t : FileTree) (made : DirectoryInfo) (location : Location) (target : Path) :
    Option FileTree :=
  if h : (∀ name ∈ location, Node.IsName name) ∧ target ≠ [] then
    some (t.place made location (fun _ => .link target) h.1
      fun _ _ => by simp [Node.WellFormed, h.2])
  else none

/-- The directory made where another one may stand, whose entries it keeps. -/
def remake (info : DirectoryInfo) (old : Option Node) : Node :=
  match old with
  | some (.directory _ entries) => .directory info entries
  | _ => .directory info []

theorem wellFormed_remake (info : DirectoryInfo) (old : Option Node)
    (h : ∀ node ∈ old, Node.WellFormed node) : (remake info old).WellFormed := by
  unfold remake
  split
  · exact (h _ rfl).reinform info
  · exact Node.wellFormed_nil info

/-- Makes a directory. Refuses a location with a name that is none. -/
def makeDirectory? (t : FileTree) (made : DirectoryInfo) (location : Location) (info : DirectoryInfo) :
    Option FileTree :=
  if h : ∀ name ∈ location, Node.IsName name then
    some (t.place made location (remake info) h (wellFormed_remake info))
  else none

/-- Takes away what stands at a location. Refuses a location with a name that is none. -/
def remove? (t : FileTree) (location : Location) : Option FileTree :=
  if h : ∀ name ∈ location, Node.IsName name then
    some { t with
      entries := Node.removeIn location t.entries
      wellFormed := t.wellFormed.removeIn h }
  else none

end FileTree

end MetadataSearch
