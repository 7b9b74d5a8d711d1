import MetadataSearch.Engine.OnDemand
import MetadataSearch.Proofs.Engine.FileItems
import MetadataSearch.Proofs.Outcome
import MetadataSearch.Proofs.Path.Texts
import MetadataSearch.Proofs.Search.Collecting
import MetadataSearch.Proofs.Text.Occurrences
import MetadataSearch.Proofs.Text.Trimming
import MetadataSearch.Tool.Answer

/-!
# Nothing lost and nothing invented

**Theorem (`search_of_find`).** When `find` ends well, a search over the index goes through the pieces of
its output between NUL bytes. Each piece that is not empty is a path and stands for one item: what `list`
says of the path, with the path added if the listing has none, or the path alone if there is no listing.
The results are the first items whose path is a text. `list` is started once for each path up to the one
that fills the cap, in order, and for no later one.

An item is asked for its path first. That loads it, and all that is asked of it afterwards finds it
loaded (`attributes_loaded`), so a found path costs one start whether it gives a result or not
(`result?_found`). From there the induction over the paths is that of `Search.collect` over the items
(`collect_eq`), and the handles that it reads are the paths that are listed.
-/

namespace MetadataSearch

open MetadataSearch.Path (ofText)

/-! ## Pieces -/

/-- The paths of an output are its pieces between NUL bytes, the empty ones left out. -/
theorem ProgramOutput.exists_pieces (p : ProgramOutput) :
    ∃ pieces : List (List UInt8), [0].intercalate pieces = p.output ∧ (∀ piece ∈ pieces, 0 ∉ piece) ∧
      p.paths = (pieces.filter fun piece => !piece.isEmpty).map fun piece =>
        Path.ofText (String.ofList (Text.decodeLossy piece)) := by
  refine ⟨p.output.splitOn 0, List.intercalate_splitOn 0, fun _ => Text.not_mem_of_mem_splitOn, ?_⟩
  simp only [paths, Path.ofText, String.toList_ofList]

theorem ProgramOutput.findFailed_eq_false {p : ProgramOutput} (hended : p.succeeded = true)
    (hmark : ¬ unreadableMark.toList <:+: Text.decodeLossy p.errors) : p.findFailed = false := by
  rw [findFailed, hended, Bool.not_true, Bool.false_or, Bool.eq_false_iff]
  exact fun hoccurs => hmark (Text.occursIn_iff.1 hoccurs)

namespace IndexPrograms

variable {programs : IndexPrograms} {path : Path}

/-! ## Items of found paths -/

/-- The item that a found path stands for. -/
inductive Describes (programs : IndexPrograms) (path : Path) : Item → Prop
  /-- The listing has a path, perhaps another one or none that is a text. -/
  | listed {p : ProgramOutput} {entries : List (String × RawValue)}
      (hlist : programs.list path = .ok p) (hended : p.succeeded = true)
      (hread : Listing.read p.outputText = .ok entries)
      (hpath : Attribute.path ∈ Fields.names entries) : Describes programs path (.ofList entries)
  /-- The listing has no path. -/
  | completed {p : ProgramOutput} {entries : List (String × RawValue)}
      (hlist : programs.list path = .ok p) (hended : p.succeeded = true)
      (hread : Listing.read p.outputText = .ok entries)
      (hpath : Attribute.path ∉ Fields.names entries) :
      Describes programs path (.ofList (entries ++ [(Attribute.path, .string path.text)]))
  /-- There is no listing. -/
  | lone
      (hfails : ∀ p entries, programs.list path = .ok p → p.succeeded = true →
        Listing.read p.outputText ≠ .ok entries) :
      Describes programs path (.ofList [(Attribute.path, .string path.text)])

theorem item?_of_listing {p : ProgramOutput} {entries : List (String × RawValue)}
    (hlist : programs.list path = .ok p) (hended : p.succeeded = true)
    (hread : Listing.read p.outputText = .ok entries) :
    programs.item? path = some (withPath path (.ofList entries)) := by
  rw [item?, hlist]
  simp only [hended, hread]
  rfl

theorem exists_listing_of_item? {item : Item} (h : programs.item? path = some item) :
    ∃ p entries, programs.list path = .ok p ∧ p.succeeded = true ∧
      Listing.read p.outputText = .ok entries ∧ item = withPath path (.ofList entries) := by
  rw [item?] at h
  split at h
  case h_1 => cases h
  case h_2 p hlist =>
    split at h
    case isFalse => cases h
    case isTrue hended =>
      obtain ⟨entries, hread, rfl⟩ := Option.map_eq_some_iff.1 h
      exact ⟨p, entries, hlist, hended, Outcome.toOption_eq_some.1 hread, rfl⟩

theorem describes_withPath {p : ProgramOutput} {entries : List (String × RawValue)}
    (hlist : programs.list path = .ok p) (hended : p.succeeded = true)
    (hread : Listing.read p.outputText = .ok entries) :
    Describes programs path (withPath path (.ofList entries)) := by
  rw [withPath]
  split
  case isTrue hpath => exact .listed hlist hended hread (Item.isSome_get?_ofList_iff.1 hpath)
  case isFalse hpath =>
    rw [Item.set_ofList]
    exact .completed hlist hended hread fun hmem => hpath (Item.isSome_get?_ofList_iff.2 hmem)

theorem describes_foundItem (programs : IndexPrograms) (path : Path) :
    Describes programs path (programs.foundItem path) := by
  rw [foundItem]
  cases hitem : programs.item? path with
  | none =>
    refine .lone fun p entries hlist hended hread => ?_
    rw [item?_of_listing hlist hended hread] at hitem
    cases hitem
  | some item =>
    obtain ⟨p, entries, hlist, hended, hread, rfl⟩ := exists_listing_of_item? hitem
    exact describes_withPath hlist hended hread

theorem names_nodup_foundItem (programs : IndexPrograms) (path : Path) :
    (programs.foundItem path).names.Nodup := by
  obtain ⟨pairs, hpairs⟩ : ∃ pairs, programs.foundItem path = .ofList pairs := by
    generalize hitem : programs.foundItem path = item
    have hdescribes := describes_foundItem programs path
    rw [hitem] at hdescribes
    cases hdescribes <;> exact ⟨_, rfl⟩
  rw [hpairs]
  exact Item.names_nodup_ofList pairs

end IndexPrograms

theorem SearchResult.ofItem?_eq (item : Item) :
    ofItem? item = ((item.get? Attribute.path).bind RawValue.asString?).map fun path =>
      ⟨path, item.attributes⟩ := by
  rw [ofItem?]
  split
  case h_1 path hpath =>
    rw [hpath]
    rfl
  case h_2 hpath =>
    cases hvalue : item.get? Attribute.path with
    | none => rfl
    | some value =>
      rw [hvalue] at hpath
      cases value with
      | string path => exact absurd rfl (hpath path)
      | _ => rfl

/-! ## Loading once -/

namespace FoundPath

variable {programs : IndexPrograms} {path : Path} {item : Item} {starts : List ProgramStart}

/-- A sequence goes on with what its first part gave, where that left off. -/
theorem bind_eq {α β : Type} {first : Reading α} {next : α → Reading β} {a : α}
    {before after : FoundPath × List ProgramStart} (h : first before = (a, after)) :
    (first >>= next) before = next a after :=
  congrArg (fun outcome : α × FoundPath × List ProgramStart => next outcome.1 outcome.2) h

/-- The attributes with that of a name of an item, if it has a type. -/
def withTyped (item : Item) (attributes : Attributes) (name : String) : Attributes :=
  ((item.get? name).bind RawValue.classify?).elim attributes fun v => Fields.insert name v attributes

theorem addTyped_loaded (attributes : Attributes) (name : String) :
    addTyped programs attributes name (⟨path, some item⟩, starts) =
      (withTyped item attributes name, ⟨path, some item⟩, starts) :=
  rfl

theorem foldlM_addTyped_loaded (names : List String) (attributes : Attributes) :
    names.foldlM (addTyped programs) attributes (⟨path, some item⟩, starts) =
      (names.foldl (withTyped item) attributes, ⟨path, some item⟩, starts) := by
  induction names generalizing attributes with
  | nil => rfl
  | cons name names ih => exact (bind_eq (addTyped_loaded attributes name)).trans (ih _)

theorem withTyped_of_mem {entry : String × RawValue} (h : item.names.Nodup)
    (hmem : entry ∈ item.entries) (attributes : Attributes) :
    withTyped item attributes entry.1 =
      entry.2.classify?.elim attributes fun v => Fields.insert entry.1 v attributes := by
  have hget : item.get? entry.1 = some entry.2 := Fields.find?_of_mem_of_nodup h hmem
  rw [withTyped, hget, Option.bind_some]

theorem foldl_withTyped_names (h : item.names.Nodup) {entries : List (String × RawValue)}
    (hentries : ∀ entry ∈ entries, entry ∈ item.entries) (attributes : Attributes) :
    (Fields.names entries).foldl (withTyped item) attributes =
      (entries.filterMap Item.typed?).foldl (fun fields pair => Fields.insert pair.1 pair.2 fields)
        attributes := by
  induction entries generalizing attributes with
  | nil => rfl
  | cons entry entries ih =>
    have hrest : ∀ other ∈ entries, other ∈ item.entries :=
      fun other hother => hentries other (List.mem_cons_of_mem _ hother)
    have hstep := withTyped_of_mem h (hentries entry List.mem_cons_self) attributes
    rw [Fields.names, List.map_cons, List.foldl_cons, hstep]
    refine (ih hrest _).trans ?_
    cases hvalue : entry.2.classify? with
    | none =>
      rw [List.filterMap_cons_none (Item.typed?_of_none hvalue)]
      rfl
    | some v =>
      rw [List.filterMap_cons_some (Item.typed?_of_some hvalue)]
      rfl

theorem attributes_loaded (h : item.names.Nodup) :
    attributes programs (⟨path, some item⟩, starts) =
      (item.attributes, ⟨path, some item⟩, starts) := by
  have hall : item.names.foldl (withTyped item) [] = item.attributes :=
    foldl_withTyped_names h (fun _ hentry => hentry) []
  exact (foldlM_addTyped_loaded item.names []).trans (by rw [hall])

/-- A found path is listed once, whatever is wanted of it. -/
theorem result?_found (programs : IndexPrograms) (path : Path) :
    result? programs (⟨path, none⟩, []) =
      (SearchResult.ofItem? (programs.foundItem path), ⟨path, some (programs.foundItem path)⟩,
        [.list path]) := by
  generalize hitem : programs.foundItem path = item
  have hnames : item.names.Nodup := hitem ▸ IndexPrograms.names_nodup_foundItem programs path
  have hpath : attribute? programs Attribute.path (⟨path, none⟩, []) =
      (item.get? Attribute.path, ⟨path, some item⟩, [.list path]) := by
    rw [← hitem]
    rfl
  rw [SearchResult.ofItem?_eq]
  refine (bind_eq hpath).trans ?_
  cases (item.get? Attribute.path).bind RawValue.asString? with
  | none => rfl
  | some path => exact bind_eq (attributes_loaded hnames)

end FoundPath

/-! ## A whole search -/

namespace IndexPrograms

section Collecting

variable {programs : IndexPrograms} {cap : Option Nat} {path : Path} {paths : List Path}

theorem collect_cons_of_some {result : SearchResult} (hcap : cap ≠ some 0)
    (h : SearchResult.ofItem? (programs.foundItem path) = some result) :
    programs.collect cap (path :: paths) =
      (result :: (programs.collect (cap.map (· - 1)) paths).1,
        .list path :: (programs.collect (cap.map (· - 1)) paths).2) := by
  rw [collect]
  · rw [FoundPath.result?_found, h]
    rfl
  · exact hcap

theorem collect_cons_of_none (hcap : cap ≠ some 0)
    (h : SearchResult.ofItem? (programs.foundItem path) = none) :
    programs.collect cap (path :: paths) =
      ((programs.collect cap paths).1, .list path :: (programs.collect cap paths).2) := by
  rw [collect]
  · rw [FoundPath.result?_found, h]
    rfl
  · exact hcap

/-- The handles of found paths. -/
def handles (programs : IndexPrograms) (paths : List Path) : List (Option Item) :=
  paths.map fun path => some (programs.foundItem path)

/-- What is collected of items on demand is what is collected of the items, and one program is started
for each handle that is read. -/
theorem collect_eq (programs : IndexPrograms) (cap : Option Nat) (paths : List Path) :
    programs.collect cap paths =
      ((Search.collect cap (programs.handles paths)).1,
        (paths.take (Search.collect cap (programs.handles paths)).2).map .list) := by
  induction paths generalizing cap with
  | nil =>
    rw [handles, List.map_nil, Search.collect_nil, List.take_nil, List.map_nil]
    cases cap with
    | none => rfl
    | some cap => cases cap <;> rfl
  | cons path paths ih =>
    by_cases hcap : cap = some 0
    · rw [hcap, Search.collect_zero, collect, List.take_zero, List.map_nil]
    · have hhandles : programs.handles (path :: paths) =
          some (programs.foundItem path) :: programs.handles paths := rfl
      rw [hhandles]
      cases hresult : (some (programs.foundItem path)).bind SearchResult.ofItem? with
      | none =>
        rw [collect_cons_of_none hcap hresult, Search.collect_cons_of_none hcap hresult, ih]
        rfl
      | some result =>
        rw [collect_cons_of_some hcap hresult, Search.collect_cons_of_some hcap hresult, ih]
        rfl

end Collecting

variable {programs : IndexPrograms} {query : String} {scopes : List Path} {p : ProgramOutput}

theorem findPaths_eq_ok (hfind : programs.find (arguments query scopes) = .ok p)
    (hended : p.findFailed = false) : programs.findPaths query scopes = .ok p.paths := by
  rw [findPaths, hfind]
  exact if_neg (Bool.eq_false_iff.1 hended)

theorem search_of_findPaths {paths : List Path} (cap : Option Nat) (hscopes : scopes ≠ [])
    (h : programs.findPaths query scopes = .ok paths) :
    programs.search query scopes cap =
      (.ok (programs.collect cap paths).1,
        .find (arguments query scopes) :: (programs.collect cap paths).2) := by
  rw [search, if_neg (by rwa [List.isEmpty_iff]), h]

/-- Items that are loaded on demand give the results of the items. -/
theorem search_fst (programs : IndexPrograms) (query : String) (scopes : List Path)
    (cap : Option Nat) :
    (programs.search query scopes cap).1 = (Search.run (.ofIndex programs) query scopes cap).1 := by
  by_cases hscopes : scopes = []
  · rw [hscopes]
    rfl
  · have hprepare : (Engine.ofIndex programs).prepare query =
        .ok fun scopes => (programs.findPaths query scopes).map programs.handles := rfl
    cases hpaths : programs.findPaths query scopes with
    | error e =>
      rw [search, if_neg (by rwa [List.isEmpty_iff]), hpaths,
        Search.run_of_execute_error cap hscopes hprepare (by rw [hpaths]; rfl)]
    | ok paths =>
      rw [search_of_findPaths cap hscopes hpaths, collect_eq,
        Search.run_of_handles cap hscopes hprepare (by rw [hpaths]; rfl)]

/-- The results that items give: those whose path is a text, under that text. -/
def resultsOf (items : List Item) : List SearchResult :=
  items.filterMap fun item => ((item.get? Attribute.path).bind RawValue.asString?).map fun path =>
    ⟨path, item.attributes⟩

theorem resultsIn_map_some (items : List Item) :
    Search.resultsIn (items.map some) = resultsOf items := by
  rw [Search.resultsIn, List.filterMap_map, resultsOf]
  exact congrArg (fun f => items.filterMap f) (funext SearchResult.ofItem?_eq)

theorem forall₂_describes (programs : IndexPrograms) (paths : List Path) :
    List.Forall₂ (Describes programs) paths (paths.map programs.foundItem) := by
  induction paths with
  | nil => exact .nil
  | cons path paths ih => exact .cons (describes_foundItem programs path) ih

/-- **The index loses and invents no result.** A run of `find` that ended well is cut into paths. Each
path stands for one item, the results are those of the first items, and `list` is started for one path
after the other as far as the cap asks for them. -/
theorem search_of_find (cap : Option Nat) (hscopes : scopes ≠ [])
    (hfind : programs.find (arguments query scopes) = .ok p) (hended : p.succeeded = true)
    (hmark : ¬ ProgramOutput.unreadableMark.toList <:+: Text.decodeLossy p.errors) :
    (∃ pieces : List (List UInt8), [0].intercalate pieces = p.output ∧
      (∀ piece ∈ pieces, 0 ∉ piece) ∧
      p.paths = (pieces.filter fun piece => !piece.isEmpty).map fun piece =>
        Path.ofText (String.ofList (Text.decodeLossy piece))) ∧
    ∃ items read,
      List.Forall₂ (Describes programs) p.paths items ∧
      (cap = none → read = p.paths.length) ∧
      (∀ k, cap = some k → Search.ReadFor k (items.map some) read) ∧
      programs.search query scopes cap =
        (.ok (cap.elim (resultsOf items) fun k => (resultsOf items).take k),
          .find (arguments query scopes) :: (p.paths.take read).map .list) ∧
      (Search.run (.ofIndex programs) query scopes cap).1 =
        .ok (cap.elim (resultsOf items) fun k => (resultsOf items).take k) := by
  have hpaths := findPaths_eq_ok hfind (ProgramOutput.findFailed_eq_false hended hmark)
  have hhandles : programs.handles p.paths = (p.paths.map programs.foundItem).map some := by
    rw [handles, List.map_map]
    rfl
  have hresults : (Search.collect cap (programs.handles p.paths)).1 =
      cap.elim (resultsOf (p.paths.map programs.foundItem)) fun k =>
        (resultsOf (p.paths.map programs.foundItem)).take k := by
    rw [hhandles]
    cases cap with
    | none => rw [Search.collect_none, resultsIn_map_some, Option.elim_none]
    | some k => rw [Search.collect_some, resultsIn_map_some, Option.elim_some]
  have hsearch := search_of_findPaths cap hscopes hpaths
  rw [collect_eq, hresults] at hsearch
  refine ⟨p.exists_pieces, _, _, forall₂_describes programs p.paths, ?_, ?_, hsearch, ?_⟩
  · rintro rfl
    rw [Search.collect_none, handles, List.length_map]
  · rintro k rfl
    rw [← hhandles]
    exact Search.readFor_collect k _
  · rw [← search_fst, hsearch]

/-- What is found here cannot be listed, is listed with a number as its path, and is listed under
another path. -/
def threeFound : IndexPrograms where
  find _ := .ok ⟨Text.encode "/a\x00\x00/b\x00/c".toList, [], true⟩
  list path :=
    let listing := if path = ofText "/b" then "kMDItemPath = 7" else "kMDItemPath = \"/d\""
    .ok ⟨Text.encode listing.toList, [], path != ofText "/a"⟩

/-- The path of a result, and its attributes as JSON. -/
def written (result : SearchResult) : String × String :=
  (result.path, Answer.ofAttributes result.attributes)

/-- What is found there with two results as the cap, which the first and the last path fill. -/
def writtenFound : List (String × String) :=
  [("/a", "\x7b\"kMDItemPath\":\"/a\"\x7d"), ("/d", "\x7b\"kMDItemPath\":\"/d\"\x7d")]

theorem search_of_find_threeFound :
    [ofText "/"] ≠ [] ∧
      ¬ ProgramOutput.unreadableMark.toList <:+: Text.decodeLossy [] ∧
      (Search.run (.ofIndex threeFound) "q" [ofText "/"] (some 2)).1.map (·.map written) =
        .ok writtenFound ∧
      (threeFound.search "q" [ofText "/"] (some 2)).1.map (·.map written) = .ok writtenFound ∧
      (threeFound.search "q" [ofText "/"] (some 2)).2 =
        [.find [ofText "-0", ofText "-onlyin", ofText "/", ofText "q"], .list (ofText "/a"),
          .list (ofText "/b"), .list (ofText "/c")] := by
  have hscopes : [ofText "/"] ≠ [] := List.cons_ne_nil _ _
  have hmark : ¬ ProgramOutput.unreadableMark.toList <:+: Text.decodeLossy [] :=
    fun h => absurd (List.infix_nil.1 h) (by decide)
  obtain ⟨-, items, read, -, -, -, hsearch, hrun⟩ :=
    @search_of_find threeFound "q" [ofText "/"] _ (some 2) hscopes rfl rfl hmark
  have hwritten : (threeFound.search "q" [ofText "/"] (some 2)).1.map (·.map written) =
      .ok writtenFound := Outcome.toOption_eq_some.1 (by decide +kernel)
  refine ⟨hscopes, hmark, ?_, hwritten, by decide +kernel⟩
  rw [hrun, ← hwritten, hsearch]

end IndexPrograms

end MetadataSearch
