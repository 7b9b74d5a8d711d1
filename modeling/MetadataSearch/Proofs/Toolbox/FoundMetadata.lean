import MetadataSearch.Proofs.FileTree.CanonicalScopes
import MetadataSearch.Proofs.Tool.AnswerText
import MetadataSearch.Proofs.Toolbox.Fence
import MetadataSearch.Proofs.Toolbox.Limits

/-!
# Metadata of what was found

**Theorem (`getMetadata_of_reply`).** Over the file engine, with a canonical scope or under the strict
policy, `get_metadata` succeeds for the path of every object in the answer to a search, if that path is a
text, and its answer is the object without the path.

Both ways lead to the same attributes, because both describe the same file under the same path. A search
finds the file under its canonical path (`FileTree.Shows.canonical?_path`). That path settles where it
is, so `get_metadata` looks for the file under no other path. The path is at or below the scope that the
roots accepted, so it is accepted too.

A path that is no text is shown as another one, and a scope that is spelled with dots gives them to what is
found there (`getMetadata_of_reply_shownPaths`).
-/

namespace MetadataSearch

open MetadataSearch.Path (slash ofText)

/-! ## Objects without their path -/

theorem Value.erase_entriesDatesAsText (entries : Fields Value) (name : String) :
    Fields.erase name (entriesDatesAsText entries) = entriesDatesAsText (entries.erase name) := by
  induction entries with
  | nil => rfl
  | cons entry rest ih =>
    obtain ⟨n, v⟩ := entry
    rw [entriesDatesAsText]
    by_cases hn : n = name
    · rw [Fields.erase_cons_of_eq hn, Fields.erase_cons_of_eq hn, ih]
    · rw [Fields.erase_cons_of_ne hn, Fields.erase_cons_of_ne hn, entriesDatesAsText, ih]

/-- No attribute of a file has the name under which an answer has the path. -/
theorem Item.ne_pathName_ofNode {path : Path} {node : Node} {field : String × Value}
    (h : field ∈ (ofNode path node).attributes) : field.1 ≠ Answer.pathName := by
  obtain ⟨⟨name, raw⟩, hentry, htyped⟩ := List.mem_filterMap.1 (Fields.mem_of_mem_ofList h)
  obtain ⟨v, -, rfl⟩ := Option.map_eq_some_iff.1 htyped
  intro hname
  have hothers : Answer.pathName ∉ Attribute.others := by decide
  have hdates : Answer.pathName ∉ Attribute.dates := by decide
  rcases name_mem_of_ofNode hentry with hmem | hmem
  · exact hothers (hname ▸ hmem)
  · exact hdates (hname ▸ hmem)

/-- An object of a search without its path is the object of the attributes. -/
theorem FoundFile.erase_object (file : FoundFile) :
    Fields.erase Answer.pathName file.object =
      Value.entriesDatesAsText (Item.ofNode file.path file.node).attributes := by
  rw [object, Value.erase_entriesDatesAsText, Answer.withPath, FoundFile.attributes_result,
    Fields.erase_insert fun _ hfield => Item.ne_pathName_ofNode hfield]

theorem FoundFile.find?_erase_object (file : FoundFile) :
    (file.object.erase Answer.pathName).find? Attribute.path = some (.text file.path.text) := by
  rw [erase_object, Value.find?_entriesDatesAsText,
    Item.find?_attributes (Item.names_nodup_ofNode file.path file.node), Item.get?_path_ofNode]
  rfl

namespace Toolbox

variable {box : Toolbox} {textLimit : Nat} {clock : Instant}

/-! ## The scope that is asked for -/

/-- The scope that is asked for. -/
def Ask.scope? : Ask → Option Path
  | .tool _ arguments => (arguments.text? "scope").map Path.ofText
  | .raw _ scope _ => some scope

/-- The scope that is asked for is the path of its canonical location. -/
def Ask.CanonicalScope (files : FileTree) (ask : Ask) : Prop :=
  ∃ location, ask.scope? = some (Path.ofLocation location) ∧
    files.canonical? (Path.ofLocation location) = some location

theorem exists_path_of_scopeArgument {arguments : Arguments} {scope : Path}
    (h : box.scopeArgument arguments = .ok scope) :
    ∃ path, (arguments.text? "scope").map Path.ofText = some path ∧ box.checkedScope path = .ok scope := by
  obtain ⟨path, hpath, hchecked⟩ := scopeArgument_eq_ok.1 h
  obtain ⟨text, htext, rfl, -⟩ := Arguments.path_eq_ok.1 hpath
  exact ⟨_, by rw [Arguments.text?_of_text htext, Option.map_some], hchecked⟩

/-- The scope of a request stands for the one that is asked for. -/
theorem exists_scope_of_requestOf {ask : Ask} {predicate : Predicate} {scope : Path} {limit : Nat}
    (h : box.requestOf ask = .ok (.find predicate scope limit)) :
    ∃ path, ask.scope? = some path ∧ box.checkedScope path = .ok scope := by
  cases ask with
  | raw fragment path _ =>
    obtain ⟨_, checked, -, hchecked, hrequest⟩ := vetRaw_eq_ok.1 h
    obtain ⟨-, rfl, -⟩ := Request.find.inj hrequest
    exact ⟨path, rfl, hchecked⟩
  | tool name arguments =>
    rw [requestOf] at h
    split at h
    case h_2 => cases h
    case h_1 tool _ =>
      cases tool with
      | search =>
        obtain ⟨_, checked, -, hscope, hrequest⟩ := vetSearch_eq_ok.1 h
        obtain ⟨-, rfl, -⟩ := Request.find.inj hrequest
        exact exists_path_of_scopeArgument hscope
      | searchByKind =>
        obtain ⟨_, checked, _, -, hscope, -, hrequest⟩ := vetSearchByKind_eq_ok.1 h
        obtain ⟨-, rfl, -⟩ := Request.find.inj hrequest
        exact exists_path_of_scopeArgument hscope
      | recentFiles =>
        obtain ⟨checked, _, hscope, -, hrequest⟩ := vetRecentFiles_eq_ok.1 h
        obtain ⟨-, rfl, -⟩ := Request.find.inj hrequest
        exact exists_path_of_scopeArgument hscope
      | getMetadata =>
        obtain ⟨_, _, -, -, -, -, hrequest⟩ := vetGetMetadata_eq_ok.1 h
        cases hrequest

/-- The engine is given a canonical scope, if one is asked for or the policy puts it in place. -/
theorem canonical_of_requestOf {ask : Ask} {predicate : Predicate} {scope : Path} {limit : Nat}
    (hcanonical : box.policy = .strict ∨ ask.CanonicalScope box.files)
    (h : box.requestOf ask = .ok (.find predicate scope limit)) :
    ∃ location, scope = Path.ofLocation location ∧ box.files.canonical? scope = some location := by
  have hvetted : box.ScopeVetted scope := vetted_of_requestOf h
  cases hpolicy : box.policy with
  | strict =>
    obtain ⟨location, hscope, hlocation, -⟩ := hvetted.existing hpolicy
    exact ⟨location, hscope, hlocation⟩
  | lenient =>
    rw [hpolicy] at hcanonical
    obtain ⟨location, hasked, hlocation⟩ := hcanonical.resolve_left (by simp)
    obtain ⟨path, hpath, hchecked⟩ := exists_scope_of_requestOf h
    obtain ⟨-, hstands, -⟩ := checkedScope_eq_ok.1 hchecked
    simp only [Stands, hpolicy] at hstands
    rw [hasked, Option.some_inj] at hpath
    rw [hstands, ← hpath]
    exact ⟨location, rfl, hlocation⟩

/-! ## The metadata -/

/-- The metadata of a path that is a text and its own canonical one. -/
theorem call_getMetadata {path : Path} {location : Location} {node : Node} {arguments : Arguments}
    (hengine : box.engine = .ofFiles box.files textLimit clock)
    (hpath : path = Path.ofLocation location) (hcanonical : box.files.canonical? path = some location)
    (hnode : box.files.node? path = some node)
    (haccepted : box.files.withinAny box.roots path = .ok location) (htext : path.IsText)
    (harguments : arguments.get? "path" = some (.string path.text)) :
    (box.call "get_metadata" arguments).1 =
      ⟨Answer.ofAttributes (Item.ofNode path node).attributes, false⟩ := by
  have habs : Path.isAbsolute path = true := hpath ▸ Path.isAbsolute_ofLocation location
  have hspelled : Path.ofText path.text = path := Path.isText_iff.1 htext
  have hne : path.text ≠ "" := htext.text_ne_empty (hpath ▸ Path.ofLocation_ne_empty location)
  have hasked : arguments.path "path" = .ok path :=
    Arguments.path_eq_ok.2 ⟨path.text, Arguments.text_of_get? harguments hne, hspelled.symm, habs⟩
  have hvet : box.vetGetMetadata arguments = .ok (.describe path path) := by
    refine vetGetMetadata_eq_ok.2 ⟨path, location, hasked, ?_, ⟨location, ?_⟩, ?_, ?_⟩
    · exact FileTree.settled_eq_ok.2 (FileTree.settle?_of_canonical? habs hcanonical)
    · rw [← hpath, haccepted]
    · rw [← hpath, hnode]
      rfl
    · rw [← hpath]
  have hcall : box.call "get_metadata" arguments = box.answer (box.vetGetMetadata arguments) := rfl
  have hitem : box.engine.itemAt? path = some (Item.ofNode path node) := by
    rw [hengine]
    show (box.files.node? path).map (Item.ofNode path) = _
    rw [hnode]
    rfl
  rw [hcall, hvet, answer, perform, hitem]
  rfl

/-- The metadata of a file in a canonical scope that the roots accepted. -/
theorem call_getMetadata_of_found {location : Location} {settled : Location} {names : List FileName}
    {file : FoundFile} {arguments : Arguments}
    (hengine : box.engine = .ofFiles box.files textLimit clock)
    (hcanonical : box.files.canonical? (Path.ofLocation location) = some location)
    (haccepted : box.files.withinAny box.roots (Path.ofLocation location) = .ok settled)
    (hshows : box.files.Shows (Path.ofLocation location) names file)
    (hlong : Path.isTooLong file.path = false) (htext : file.path.IsText)
    (harguments : arguments.get? "path" = some (.string file.path.text)) :
    (box.call "get_metadata" arguments).1 =
      ⟨Answer.ofAttributes (Item.ofNode file.path file.node).attributes, false⟩ := by
  have hpath := hshows.path_ofLocation hcanonical
  obtain ⟨hfound, hnode⟩ := hshows.canonical?_path hcanonical hlong
  have habs : Path.isAbsolute file.path = true := hpath ▸ Path.isAbsolute_ofLocation _
  have hscopeSettled := FileTree.settle?_of_canonical? (Path.isAbsolute_ofLocation location) hcanonical
  have hpathSettled := FileTree.settle?_of_canonical? habs hfound
  exact call_getMetadata hengine hpath hfound hnode
    (FileTree.withinAny_of_below haccepted hscopeSettled hpathSettled) htext harguments

/-- **What a search finds, `get_metadata` describes,** if its path is a text. -/
theorem getMetadata_of_reply {ask : Ask} (hengine : box.engine = .ofFiles box.files textLimit clock)
    (hsearch : ask.IsSearch) (hcanonical : box.policy = .strict ∨ ask.CanonicalScope box.files)
    (hok : (box.reply ask).1.isError = false) :
    ∃ predicate scope filter,
      box.requestOf ask = .ok (.find predicate scope (Limit.ofRequest ask.limit?)) ∧
      Query.parse clock predicate.text = .ok filter ∧
      Value.decode (box.reply ask).1.text =
        .ok (.list ((((box.files.filesMatching textLimit filter [scope]).take
          (Limit.ofRequest ask.limit?)).map FoundFile.object).map .map)) ∧
      ∀ file ∈ box.files.filesMatching textLimit filter [scope],
        box.files.node? file.path = some file.node ∧
        file.object.find? Answer.pathName = some (.text file.path.text) ∧
        (file.path.IsText → ∀ arguments : Arguments,
          arguments.get? "path" = some (.string file.path.text) →
            (box.call "get_metadata" arguments).1.isError = false ∧
              Value.decode (box.call "get_metadata" arguments).1.text =
                .ok (.map (file.object.erase Answer.pathName))) := by
  obtain ⟨predicate, scope, filter, hrequest, hparse, hdecode⟩ := decode_of_reply hengine hsearch hok
  have hvetted : box.ScopeVetted scope := vetted_of_requestOf hrequest
  obtain ⟨settled, haccepted⟩ := hvetted.accepted
  obtain ⟨location, rfl, hlocation⟩ := canonical_of_requestOf hcanonical hrequest
  refine ⟨predicate, _, filter, hrequest, hparse, hdecode, fun file hfile => ?_⟩
  have hlists := box.files.lists_filesMatching textLimit filter (Path.ofLocation location)
  obtain ⟨⟨names, hshows⟩, hanswers⟩ := hlists.mem_iff.1 hfile
  rw [FoundFile.answers, Bool.and_eq_true, Bool.not_eq_true'] at hanswers
  refine ⟨hshows.node?_path hanswers.1, ?_, fun htext arguments harguments => ?_⟩
  · rw [FoundFile.find?_object, if_pos rfl]
  · rw [call_getMetadata_of_found hengine hlocation haccepted hshows hanswers.1 htext harguments]
    refine ⟨rfl, ?_⟩
    rw [Answer.decode_ofAttributes (Item.attributes_plain_ofNode file.path file.node),
      FoundFile.erase_object]

end Toolbox

/-! ## A directory among links -/

/-- A written query in a directory that is given under its canonical path. -/
def docsAsk : Toolbox.Ask := .raw "kMDItemTextContent == \"*hi*\"" (ofText "/allowed/docs") none

def docsFound : List FoundFile := [linkedText "/allowed/docs/a.txt"]

def docsArguments : Arguments := ⟨[("path", .string "/allowed/docs/a.txt")]⟩

theorem Toolbox.getMetadata_of_reply_linkedFiles :
    docsAsk.IsSearch ∧ docsAsk.CanonicalScope linkedBox.files ∧
      (linkedBox.reply docsAsk).1.isError = false ∧
      Value.decode (linkedBox.reply docsAsk).1.text =
        .ok (.list ((docsFound.map FoundFile.object).map .map)) ∧
      ∀ file ∈ docsFound, file.object.find? Answer.pathName = some (.text "/allowed/docs/a.txt") ∧
        (linkedBox.call "get_metadata" docsArguments).1.isError = false ∧
        Value.decode (linkedBox.call "get_metadata" docsArguments).1.text =
          .ok (.map (file.object.erase Answer.pathName)) := by
  have hengine : linkedBox.engine = .ofFiles linkedBox.files 16 ⟨0, 0⟩ := rfl
  have hscope : docsAsk.CanonicalScope linkedBox.files :=
    ⟨[ofText "allowed", ofText "docs"], by decide +kernel, by decide +kernel⟩
  have hok : (linkedBox.reply docsAsk).1.isError = false := by decide +kernel
  have hsearch : docsAsk.IsSearch := trivial
  obtain ⟨predicate, scope, filter, hrequest, hparse, hdecode, hall⟩ :=
    getMetadata_of_reply hengine hsearch (.inr hscope) hok
  have hfind : linkedBox.requestOf docsAsk =
      .ok (.find ⟨"kMDItemTextContent == \"*hi*\"", .raw⟩ (ofText "/allowed/docs") 100) :=
    Outcome.toOption_eq_some.1 (by decide +kernel)
  obtain ⟨rfl, rfl, -⟩ := Request.find.inj (Except.ok.inj (hrequest.symm.trans hfind))
  have hfiles : (Query.parse ⟨0, 0⟩ "kMDItemTextContent == \"*hi*\"").toOption.map (fun filter =>
      linkedFiles.filesMatching 16 filter [ofText "/allowed/docs"]) = some docsFound := by
    decide +kernel
  obtain ⟨other, hother, hfound⟩ := Option.map_eq_some_iff.1 hfiles
  obtain rfl : other = filter := Except.ok.inj ((Outcome.toOption_eq_some.1 hother).symm.trans hparse)
  have hmatching : linkedBox.files.filesMatching 16 other [ofText "/allowed/docs"] = docsFound := hfound
  rw [hmatching] at hdecode hall
  refine ⟨hsearch, hscope, hok, hdecode, fun file hfile => ?_⟩
  obtain rfl := List.mem_singleton.1 hfile
  obtain ⟨-, hpath, hmetadata⟩ := hall _ hfile
  exact ⟨hpath, hmetadata ⟨"/allowed/docs/a.txt", rfl⟩ docsArguments rfl⟩

/-! ## Paths that are shown otherwise -/

/-- A file whose name is no text. -/
def brokenName : FileTree where
  info := ⟨⟨⟨0, 0⟩, none⟩, 64⟩
  entries := [(97 :: 0xFF :: ofText ".txt", .file [104, 105] ⟨⟨1, 0⟩, none⟩)]
  workingDirectory := []
  wellFormed := by
    simp only [Node.WellFormed, Node.EntriesWellFormed, Fields.Ascending, Fields.names]
    decide

def brokenNameBox : Toolbox := ⟨.ofFiles brokenName 16 ⟨0, 0⟩, brokenName, .strict, [], ⟨0, 0⟩⟩

def brokenNameFile : FoundFile :=
  ⟨slash :: 97 :: 0xFF :: ofText ".txt", [104, 105], ⟨⟨1, 0⟩, none⟩⟩

/-- Everything of two bytes. -/
def twoBytesAsk (scope : String) : Toolbox.Ask := .raw "kMDItemFSSize == 2" (ofText scope) none

/-- **What is found may not be described under the path that is shown.** A path that is no text is shown
as one that leads nowhere. A scope that is its own canonical path up to a last dot gives the dot to the
paths below it, and the description is of the path without it. -/
theorem Toolbox.getMetadata_of_reply_shownPaths :
    (brokenNameBox.policy = .strict ∧ (brokenNameBox.reply (twoBytesAsk "/")).1.isError = false ∧
      Value.decode (brokenNameBox.reply (twoBytesAsk "/")).1.text =
        .ok (.list [.map brokenNameFile.object]) ∧
      brokenNameFile.object.find? Answer.pathName = some (.text "/a\uFFFD.txt") ∧
      (brokenNameBox.call "get_metadata" ⟨[("path", .string "/a\uFFFD.txt")]⟩).1 =
        ⟨"File not found: /a\uFFFD.txt", true⟩) ∧
    (Path.identity (ofText "/allowed/docs/.") = Path.identity (ofText "/allowed/docs") ∧
      linkedFiles.canonical? (ofText "/allowed/docs/.") = some [ofText "allowed", ofText "docs"] ∧
      (linkedBox.reply (twoBytesAsk "/allowed/docs/.")).1.isError = false ∧
      Value.decode (linkedBox.reply (twoBytesAsk "/allowed/docs/.")).1.text =
        .ok (.list [.map (linkedText "/allowed/docs/./a.txt").object]) ∧
      Value.decode (linkedBox.call "get_metadata"
          ⟨[("path", .string "/allowed/docs/./a.txt")]⟩).1.text =
        .ok (.map ((linkedText "/allowed/docs/a.txt").object.erase Answer.pathName)) ∧
      (linkedText "/allowed/docs/a.txt").object.erase Answer.pathName ≠
        (linkedText "/allowed/docs/./a.txt").object.erase Answer.pathName) := by
  have hbroken : Value.decode (brokenNameBox.reply (twoBytesAsk "/")).1.text =
      .ok (.list (([brokenNameFile].map FoundFile.object).map .map)) := by
    have hrequest : brokenNameBox.requestOf (twoBytesAsk "/") =
        .ok (.find ⟨"kMDItemFSSize == 2", .raw⟩ (ofText "/") 100) :=
      Outcome.toOption_eq_some.1 (by decide +kernel)
    have hfiles : (Query.parse ⟨0, 0⟩ "kMDItemFSSize == 2").toOption.map (fun filter =>
        (brokenName.filesMatching 16 filter [ofText "/"]).take 100) = some [brokenNameFile] := by
      decide +kernel
    exact decode_of_find rfl hrequest hfiles
  have hdotted : Value.decode (linkedBox.reply (twoBytesAsk "/allowed/docs/.")).1.text =
      .ok (.list (([linkedText "/allowed/docs/./a.txt"].map FoundFile.object).map .map)) := by
    have hrequest : linkedBox.requestOf (twoBytesAsk "/allowed/docs/.") =
        .ok (.find ⟨"kMDItemFSSize == 2", .raw⟩ (ofText "/allowed/docs/.") 100) :=
      Outcome.toOption_eq_some.1 (by decide +kernel)
    have hfiles : (Query.parse ⟨0, 0⟩ "kMDItemFSSize == 2").toOption.map (fun filter =>
        (linkedFiles.filesMatching 16 filter [ofText "/allowed/docs/."]).take 100) =
          some [linkedText "/allowed/docs/./a.txt"] := by
      decide +kernel
    exact decode_of_find rfl hrequest hfiles
  have hdescribed : (linkedBox.call "get_metadata" ⟨[("path", .string "/allowed/docs/./a.txt")]⟩).1 =
      ⟨Answer.ofAttributes (Item.ofNode (ofText "/allowed/docs/a.txt")
        (linkedText "/allowed/docs/a.txt").node).attributes, false⟩ := by
    have hvet : linkedBox.vetGetMetadata ⟨[("path", .string "/allowed/docs/./a.txt")]⟩ =
        .ok (.describe (ofText "/allowed/docs/./a.txt") (ofText "/allowed/docs/a.txt")) :=
      Outcome.toOption_eq_some.1 (by decide +kernel)
    show (linkedBox.answer (linkedBox.vetGetMetadata _)).1 = _
    rw [hvet]
    rfl
  refine ⟨⟨rfl, by decide +kernel, hbroken, ?_, by decide +kernel⟩, by decide, by decide +kernel,
    by decide +kernel, hdotted, ?_, ?_⟩
  · have hshown : brokenNameFile.path.text = "/a\uFFFD.txt" := by decide +kernel
    rw [FoundFile.find?_object, if_pos rfl, hshown]
  · rw [hdescribed, Answer.decode_ofAttributes (Item.attributes_plain_ofNode _ _), FoundFile.erase_object]
    rfl
  · intro hsame
    have hpaths := congrArg (Fields.find? Attribute.path) hsame
    simp only [FoundFile.find?_erase_object, linkedText, Path.text_ofText, Option.some_inj,
      Value.text.injEq] at hpaths
    exact absurd hpaths (by decide)

end MetadataSearch
