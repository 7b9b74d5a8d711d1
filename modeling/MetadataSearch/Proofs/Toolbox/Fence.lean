import MetadataSearch.Proofs.FileTree.Canonical
import MetadataSearch.Proofs.FileTree.Visits
import MetadataSearch.Proofs.Search.FileResults
import MetadataSearch.Proofs.Toolbox.FileAnswers

/-!
# Answers stay inside the fence

**Theorem (`fenced_of_reply`).** Over the file engine and with at least one root, a call that
succeeds shows only files that are at or below one of the roots, if the path that it hands to the
engine has a canonical location whenever it leads anywhere.

Every request that passes the vetting has a path that is accepted by the roots
(`vetted_of_requestOf`), whatever the tool and the policy are. By `fenced_of_withinAny` the location of
that path is in the fence. The files of an answer are at or below that location, or are the file at
it.

The condition cannot be left out. The location of a path is canonical if it can be looked up under
its own path, and links lead to locations whose own path is too long for that. There the check keeps
the name of the link (`withinAny_join_of_not_found`), while the engine goes through the link.
-/

namespace MetadataSearch

open MetadataSearch.Path (ofText)

/-- The path of a request. -/
def Request.path : Request → Path
  | .find _ scope _ => scope
  | .describe _ path => path

/-- The paths that a call on an engine is about. -/
def Engine.Call.paths : Engine.Call → List Path
  | .setScopes scopes => scopes
  | .item path => [path]
  | _ => []

/-- The path leads to a location in the fence. -/
def FileTree.FencedPath (t : FileTree) (roots : List Path) (path : Path) : Prop :=
  ∃ location, t.location? path = some location ∧ t.Fenced roots location

/-- What is shown by an answer is in the fence: the file of every object in a list, and what the attributes
describe. Each of them is in the tree at its path, and is shown under that path. -/
def FileTree.FencedAnswer (t : FileTree) (roots : List Path) : Value → Prop
  | .list items =>
    ∀ item ∈ items, ∃ file : FoundFile, item = .map file.object ∧
      t.node? file.path = some file.node ∧
      item.member? Answer.pathName = some (.text file.path.text) ∧ t.FencedPath roots file.path
  | v => ∃ path node,
    v = .map (Value.entriesDatesAsText (Item.ofNode path node).attributes) ∧
      t.node? path = some node ∧
      v.member? Attribute.path = some (.text path.text) ∧ t.FencedPath roots path

namespace Toolbox

variable {box : Toolbox}

/-! ## Vetted requests -/

/-- The path of a request is accepted by the roots. -/
def Accepted (box : Toolbox) (request : Request) : Prop :=
  ∃ location, box.files.withinAny box.roots request.path = .ok location

theorem accepted_of_vetted {request : Request} (h : box.Vetted request) : box.Accepted request := by
  cases request with
  | find predicate scope limit => exact h.accepted
  | describe asked path => exact h.accepted

end Toolbox

/-! ## Names that are kept -/

namespace FileTree

variable {t : FileTree} {roots : List Path}

/-- A name for which no canonical location is found settles below the place where its directory
settles. -/
theorem settle?_join_of_not_found {path : Path} {name : FileName} {here : Location}
    (habs : Path.isAbsolute path = true) (hhere : t.canonical? path = some here)
    (hname : Node.IsName name)
    (hnone : t.locateByPath [] ((here ++ [name]).map .down) = none) :
    t.settle? (Path.join path name) = some (here ++ [name]) := by
  have hne : path ≠ [] := by
    rintro rfl
    cases habs
  have hsettle := settle?_of_canonical? habs hhere
  rw [settle?, if_pos habs] at hsettle
  rw [settle?, if_pos (by rw [Path.isAbsolute_join name hne, habs])]
  obtain ⟨front, hpath, hjoin⟩ := Path.steps_join path hname
  -- A last slash of the path does not matter.
  have hfront : front.foldl t.settleStep [] = here := by
    rcases hpath with hpath | hpath
    · rw [hpath] at hsettle
      exact Option.some.inj hsettle
    · rw [hpath, List.foldl_append] at hsettle
      exact Option.some.inj hsettle
  rw [hjoin, List.foldl_append, hfront, List.foldl_cons, List.foldl_nil, settleStep, hnone]
  rfl

/-- **The gap of the check.** Below a place in the fence, a name for which no canonical location is
found is accepted wherever it leads. -/
theorem withinAny_join_of_not_found {path : Path} {name : FileName} {here : Location}
    (habs : Path.isAbsolute path = true) (hhere : t.canonical? path = some here)
    (hname : Node.IsName name)
    (hnone : t.locateByPath [] ((here ++ [name]).map .down) = none) (hfence : t.Fenced roots here) :
    t.withinAny roots (Path.join path name) = .ok (here ++ [name]) := by
  have hroots : roots ≠ [] := by
    rintro rfl
    obtain ⟨root, hroot, -⟩ := hfence
    cases hroot
  refine (withinAny_eq_ok_iff hroots).2 ⟨?_, fenced_append [name] hfence⟩
  exact settle?_join_of_not_found habs hhere hname hnone

end FileTree

/-! ## The fence -/

namespace FileTree

variable {t : FileTree} {roots : List Path}

theorem exists_location_of_node? {path : Path} {node : Node} (h : t.node? path = some node) :
    ∃ location, t.location? path = some location := by
  rw [node?] at h
  split at h
  case isTrue => cases h
  case isFalse =>
    obtain ⟨location, hlocation, -⟩ := Option.bind_eq_some_iff.1 h
    exact ⟨location, hlocation⟩

theorem fencedAnswer_ofResults {scope : Path} {results : List SearchResult}
    (hscope : ∀ location, t.location? scope = some location → t.Fenced roots location)
    (hresults : ∀ result ∈ results, ∃ file ∈ t.visibleInAll [scope], result = file.result) :
    ∃ v, Value.decode (Answer.ofResults results) = .ok v ∧ t.FencedAnswer roots v := by
  have hplain : ∀ result ∈ results, result.attributes.Plain := by
    intro result hresult
    obtain ⟨file, -, rfl⟩ := hresults result hresult
    exact file.plain_result
  refine ⟨_, Answer.decode_ofResults hplain, fun item hitem => ?_⟩
  obtain ⟨result, hresult, rfl⟩ := List.mem_map.1 hitem
  obtain ⟨file, hfile, rfl⟩ := hresults result hresult
  obtain ⟨other, hother, here, names, hhere, hlocation⟩ := exists_location_of_visibleInAll hfile
  obtain rfl := List.mem_singleton.1 hother
  obtain ⟨hvisited, hlong⟩ := mem_visits_of_visibleInAll hfile
  obtain ⟨_, -, _, hshows⟩ := exists_shows_of_mem_visits hvisited
  exact ⟨file, rfl, hshows.node?_path hlong, Answer.member?_withPath file.result, here ++ names, hlocation,
    fenced_append names (hscope here hhere)⟩

theorem fencedAnswer_ofAttributes {path : Path} {node : Node} (hnode : t.node? path = some node)
    (hpath : t.FencedPath roots path) :
    ∃ v, Value.decode (Answer.ofAttributes (Item.ofNode path node).attributes) = .ok v ∧
      t.FencedAnswer roots v := by
  refine ⟨_, Answer.decode_ofAttributes (Item.attributes_plain_ofNode path node), path, node, rfl, hnode, ?_,
    hpath⟩
  rw [Value.member?, Value.find?_entriesDatesAsText,
    Item.find?_attributes (Item.names_nodup_ofNode path node), Item.get?_path_ofNode]
  rfl

end FileTree

/-- **Successful calls show only what is in the fence.** -/
theorem Toolbox.fenced_of_reply {box : Toolbox} {ask : Ask} {textLimit : Nat} {clock : Instant}
    (hengine : box.engine = .ofFiles box.files textLimit clock) (hroots : box.roots ≠ [])
    (hok : (box.reply ask).1.isError = false)
    (hcanonical : ∀ call ∈ (box.reply ask).2, ∀ path ∈ call.paths,
      (box.files.location? path).isSome → (box.files.canonical? path).isSome) :
    ∃ v, Value.decode (box.reply ask).1.text = .ok v ∧ box.files.FencedAnswer box.roots v := by
  obtain ⟨request, text, hvetted, hperform, hrequest⟩ := exists_request_of_reply hok
  obtain ⟨settled, haccepted⟩ := accepted_of_vetted (vetted_of_requestOf hvetted)
  rw [hrequest] at hcanonical ⊢
  cases request with
  | find predicate scope limit =>
    rw [perform, hengine] at hperform hcanonical
    split at hperform
    case h_2 => cases hperform
    case h_1 results calls hrun =>
      obtain rfl := Except.ok.inj hperform
      obtain ⟨hmem, hresults⟩ := Search.results_of_run hrun
      simp only [hrun] at hcanonical
      have hscope : ∀ location, box.files.location? scope = some location →
          box.files.Fenced box.roots location := fun location hlocation =>
        FileTree.fenced_of_withinAny hroots haccepted
          (hcanonical _ hmem scope List.mem_cons_self) hlocation
      exact FileTree.fencedAnswer_ofResults hscope fun result h =>
        hresults result (List.mem_of_mem_take h)
  | describe asked path =>
    rw [perform, hengine] at hperform hcanonical
    split at hperform
    case h_2 => cases hperform
    case h_1 item hitem =>
      obtain rfl := Except.ok.inj hperform
      rw [hitem] at hcanonical
      obtain ⟨node, hnode, rfl⟩ := Option.map_eq_some_iff.1 hitem
      obtain ⟨location, hlocation⟩ := FileTree.exists_location_of_node? hnode
      refine FileTree.fencedAnswer_ofAttributes hnode ⟨location, hlocation, ?_⟩
      exact FileTree.fenced_of_withinAny hroots haccepted
        (hcanonical (.item path) List.mem_cons_self path List.mem_cons_self) hlocation

/-! ## A tree with links -/

/-- Links that lead out of the root, into it past another link, and nowhere. -/
def linkedFiles : FileTree where
  info := ⟨⟨⟨0, 0⟩, none⟩, 64⟩
  entries :=
    [(ofText "allowed", .directory ⟨⟨⟨0, 0⟩, none⟩, 64⟩
        [(ofText ".hidden", .file [104, 105] ⟨⟨1, 0⟩, none⟩),
          (ofText "docs", .directory ⟨⟨⟨2, 0⟩, none⟩, 64⟩
            [(ofText "a.txt", .file [104, 105] ⟨⟨3, 0⟩, some ⟨2, 5⟩⟩),
              (ofText "out", .link (ofText "../../secret"))]),
          (ofText "gone", .link (ofText "nowhere")), (ofText "l", .link (ofText "../up/allowed/docs"))]),
      (ofText "secret", .directory ⟨⟨⟨0, 0⟩, none⟩, 64⟩
        [(ofText "s.txt", .file [104, 105] ⟨⟨1, 0⟩, none⟩)]),
      (ofText "up", .link (ofText "."))]
  workingDirectory := []
  wellFormed := by
    simp only [Node.WellFormed, Node.EntriesWellFormed, Fields.Ascending, Fields.names]
    decide

def linkedBox : Toolbox :=
  ⟨.ofFiles linkedFiles 16 ⟨0, 0⟩, linkedFiles, .lenient, [ofText "/none", ofText "/allowed"], ⟨0, 0⟩⟩

/-- A search for a text in a scope that goes up and through two links. -/
def linkedAsk : Toolbox.Ask :=
  .tool "search" ⟨[("query", .string "HI"), ("scope", .string "/allowed/docs/../l/")]⟩

/-- The one file that is shown there, under a path that leads to it. -/
def linkedText (path : String) : FoundFile := ⟨ofText path, [104, 105], ⟨⟨3, 0⟩, some ⟨2, 5⟩⟩⟩

/-- What is found. -/
def linkedFound : List FoundFile := [linkedText "/allowed/docs/../l/a.txt"]

theorem Toolbox.fenced_of_reply_linkedFiles :
    linkedBox.roots ≠ [] ∧ (linkedBox.reply linkedAsk).1.isError = false ∧
      (∀ call ∈ (linkedBox.reply linkedAsk).2, ∀ path ∈ call.paths,
        (linkedBox.files.location? path).isSome → (linkedBox.files.canonical? path).isSome) ∧
      Value.decode (linkedBox.reply linkedAsk).1.text =
        .ok (.list ((linkedFound.map FoundFile.object).map .map)) ∧
      linkedBox.files.FencedAnswer linkedBox.roots (.list ((linkedFound.map FoundFile.object).map .map)) := by
  have hengine : linkedBox.engine = .ofFiles linkedBox.files 16 ⟨0, 0⟩ := rfl
  have hroots : linkedBox.roots ≠ [] := List.cons_ne_nil _ _
  have hok : (linkedBox.reply linkedAsk).1.isError = false := by decide +kernel
  have hcanonical : ∀ call ∈ (linkedBox.reply linkedAsk).2, ∀ path ∈ call.paths,
      (linkedBox.files.location? path).isSome → (linkedBox.files.canonical? path).isSome := by
    decide +kernel
  obtain ⟨v, hdecode, hfenced⟩ := fenced_of_reply hengine hroots hok hcanonical
  have hrequest : linkedBox.requestOf linkedAsk =
      .ok (.find (Predicate.naturalText "HI") (ofText "/allowed/docs/../l/") 100) :=
    Outcome.toOption_eq_some.1 (by decide +kernel)
  have hfiles : (Query.parse ⟨0, 0⟩ (Predicate.naturalText "HI").text).toOption.map (fun filter =>
      (linkedFiles.filesMatching 16 filter [ofText "/allowed/docs/../l/"]).take 100) =
        some linkedFound := by
    decide +kernel
  have hlisted : Value.decode (linkedBox.reply linkedAsk).1.text =
      .ok (.list ((linkedFound.map FoundFile.object).map .map)) :=
    decode_of_find hengine hrequest hfiles
  obtain rfl := Except.ok.inj (hdecode.symm.trans hlisted)
  exact ⟨hroots, hok, hcanonical, hlisted, hfenced⟩

end MetadataSearch
