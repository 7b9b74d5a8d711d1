import Mathlib.Data.List.Forall2
import MetadataSearch.Proofs.Engine.FileSources
import MetadataSearch.Proofs.FileTree.Spellings
import MetadataSearch.Proofs.Query.ModifiedSince
import MetadataSearch.Proofs.Query.NaturalText
import MetadataSearch.Proofs.Query.OfKind
import MetadataSearch.Proofs.Toolbox.Fence
import MetadataSearch.Proofs.Toolbox.FileAnswers

/-!
# The strict and the lenient policy

**Theorem (`lenient_of_strict`).** A search of a tool that succeeds under the strict policy succeeds under
the lenient one, for the same query in the scope as it was spelled. Unless some file that the query
selects has just one of its two paths too long, the canonical one or the one under that spelling, both
answers have the same objects in the same order, which differ in their paths only. Those of the strict
answer are canonical.

The scope of the strict policy is the canonical path of the directory to which the given path leads, so it
is checked against the roots at the place where the given path settles (`checkedScope_lenient`). The
directory is listed alike under both paths (`FileTree.Lists.under`), since a query that a tool builds reads
no path (`Builds.references_path`).

Where only one of two paths is too long, only one of the policies finds the file
(`lenient_of_strict_dots`).
-/

namespace MetadataSearch

open MetadataSearch.Path (slash dot ofText)

/-! ## Files under another spelling -/

namespace FoundFile

variable {t : FileTree} {scope other : Path} {names : List FileName} {file : FoundFile}

/-- A file in a directory has the same name under every spelling of the directory. -/
theorem fileName?_under {location : Location} {node : Node} (hne : names ≠ [])
    (hat : t.at? (location ++ names) = some node) (hpath : file.path = names.foldl Path.join scope) :
    Path.fileName? file.path = Path.fileName? (file.under other names).path := by
  rcases List.eq_nil_or_concat names with hnil | ⟨front, name, rfl⟩
  · exact absurd hnil hne
  · have hname : Node.IsName name := FileTree.isName_of_at? hat name (by simp)
    rw [hpath, under, List.concat_eq_append, List.foldl_append, List.foldl_append]
    exact (Path.fileName?_join _ hname).trans (Path.fileName?_join _ hname).symm

end FoundFile

/-- Two objects that agree in all but the path. The first one has the canonical form of the path of the
second one; both paths are shown as texts. -/
structure SameButPath (t : FileTree) (object other : Fields Value) : Prop where
  members : ∀ name, name ≠ Answer.pathName → name ≠ Attribute.path →
    object.find? name = other.find? name
  paths : ∃ path location, t.canonical? path = some location ∧
    ∀ name ∈ [Answer.pathName, Attribute.path], other.find? name = some (.text path.text) ∧
      object.find? name = some (.text (Path.ofLocation location).text)

/-- The root is the canonical location of every such spelling. -/
theorem FileTree.canonical?_dots (t : FileTree) (n : Nat) : t.canonical? (dots n) = some [] := by
  rw [canonical?, if_neg (dots_ne_empty n), start, if_pos (isAbsolute_dots n), steps_dots,
    locateByPath, linkLimit, follow, walk_still rfl]

namespace Toolbox

variable {box : Toolbox} {textLimit : Nat} {clock : Instant} {arguments : Arguments}

/-- The toolbox with the lenient policy in place of its own. -/
def lenient (box : Toolbox) : Toolbox := { box with policy := .lenient }

/-! ## Requests -/

/-- The predicate that a tool builds from its arguments, whatever the scope is. -/
inductive Builds (box : Toolbox) (arguments : Arguments) : (tool : String) → Predicate → Prop
  | text {text : String} (h : arguments.text "query" = .ok text) :
      Builds box arguments "search" (Predicate.naturalText text)
  | kind {name : String} {kind : Kind} (h : arguments.text "kind" = .ok name)
      (hkind : Kind.ofName? name = some kind) :
      Builds box arguments "search_by_kind" (Predicate.ofKind kind)
  | since {t : Instant} (h : box.sinceOf arguments = .ok t) :
      Builds box arguments "recent_files" (Predicate.modifiedSince t.format)

/-- A tool searches for what it builds, in the vetted scope. -/
theorem requestOf_tool_eq_ok {tool : String} {predicate : Predicate} {scope : Path} {limit : Nat} :
    box.requestOf (.tool tool arguments) = .ok (.find predicate scope limit) ↔
      box.Builds arguments tool predicate ∧ box.scopeArgument arguments = .ok scope ∧
        limit = limitOf arguments := by
  constructor
  · intro h
    rw [requestOf] at h
    split at h
    case h_2 => cases h
    case h_1 known hknown =>
      obtain rfl := Tool.name_of_ofName? hknown
      cases known with
      | search =>
        obtain ⟨text, _, htext, hscope, hrequest⟩ := vetSearch_eq_ok.1 h
        obtain ⟨rfl, rfl, rfl⟩ := Request.find.inj hrequest
        exact ⟨.text htext, hscope, rfl⟩
      | searchByKind =>
        obtain ⟨name, _, kind, hname, hscope, hkind, hrequest⟩ := vetSearchByKind_eq_ok.1 h
        obtain ⟨rfl, rfl, rfl⟩ := Request.find.inj hrequest
        exact ⟨.kind hname hkind, hscope, rfl⟩
      | recentFiles =>
        obtain ⟨_, since, hscope, hsince, hrequest⟩ := vetRecentFiles_eq_ok.1 h
        obtain ⟨rfl, rfl, rfl⟩ := Request.find.inj hrequest
        exact ⟨.since hsince, hscope, rfl⟩
      | getMetadata =>
        obtain ⟨_, _, -, -, -, -, hrequest⟩ := vetGetMetadata_eq_ok.1 h
        cases hrequest
  · rintro ⟨hbuilds, hscope, rfl⟩
    cases hbuilds with
    | text htext => exact vetSearch_eq_ok.2 ⟨_, scope, htext, hscope, rfl⟩
    | kind hname hkind => exact vetSearchByKind_eq_ok.2 ⟨_, scope, _, hname, hscope, hkind, rfl⟩
    | since hsince => exact vetRecentFiles_eq_ok.2 ⟨scope, _, hscope, hsince, rfl⟩

theorem Builds.lenient {tool : String} {predicate : Predicate}
    (h : box.Builds arguments tool predicate) : box.lenient.Builds arguments tool predicate := by
  cases h with
  | text htext => exact .text htext
  | kind hname hkind => exact .kind hname hkind
  | since hsince => exact .since hsince

/-- What a tool builds reads no path. -/
theorem Builds.references_path {tool : String} {predicate : Predicate} {filter : Query.Filter}
    (h : box.Builds arguments tool predicate)
    (hparse : Query.parse clock predicate.text = .ok filter) :
    filter.references Attribute.path = false := by
  cases h with
  | @text text _ =>
    obtain ⟨pattern, hpattern, -⟩ :=
      Query.TextPattern.exists_ofText (Query.starred text) ['c', 'd'] rfl
    rw [Query.parse_starred clock hpattern] at hparse
    obtain rfl := Except.ok.inj hparse
    rfl
  | @kind _ kind _ _ =>
    obtain ⟨pattern, hkind, -⟩ := Query.parse_ofKind clock kind
    rw [hkind] at hparse
    obtain rfl := Except.ok.inj hparse
    rfl
  | @since since _ =>
    rw [Query.parse_modifiedSince_write] at hparse
    cases hread : Instant.readIso? since.write with
    | none =>
      rw [hread] at hparse
      cases hparse
    | some t =>
      rw [hread] at hparse
      obtain rfl := Except.ok.inj hparse
      rfl

/-- The path leads to a directory, which has this canonical scope. -/
structure LeadsTo (box : Toolbox) (path : Path) (location : Location) : Prop where
  absolute : Path.isAbsolute path = true
  canonical : box.files.canonical? path = some location
  own : box.files.canonical? (Path.ofLocation location) = some location
  directory : (box.files.at? location).any Node.isDirectory = true

/-- A scope that the strict policy accepts is accepted as it was given. -/
theorem checkedScope_lenient {path scope : Path} (hpolicy : box.policy = .strict)
    (h : box.checkedScope path = .ok scope) :
    (∃ location, scope = Path.ofLocation location ∧ box.LeadsTo path location) ∧
      box.lenient.checkedScope path = .ok path := by
  obtain ⟨habs, hstands, settled, hwithin⟩ := checkedScope_eq_ok.1 h
  simp only [Stands, hpolicy] at hstands
  obtain ⟨location, hscope, rfl⟩ := hstands
  obtain ⟨hcanonical, hown, hdirectory⟩ := FileTree.canonical_of_scope habs hscope
  refine ⟨⟨location, rfl, habs, hcanonical, hown, hdirectory⟩,
    checkedScope_eq_ok.2 ⟨habs, rfl, location, ?_⟩⟩
  have hsettled := FileTree.settle?_of_canonical? habs hcanonical
  have hownSettled := FileTree.settle?_of_canonical? (Path.isAbsolute_ofLocation location) hown
  have hbelow : box.files.withinAny box.roots path = .ok (location ++ []) :=
    FileTree.withinAny_of_below hwithin hownSettled (by rw [List.append_nil]; exact hsettled)
  rwa [List.append_nil] at hbelow

theorem scopeArgument_lenient {scope : Path} (hpolicy : box.policy = .strict)
    (h : box.scopeArgument arguments = .ok scope) :
    ∃ path location, arguments.path "scope" = .ok path ∧ scope = Path.ofLocation location ∧
      box.LeadsTo path location ∧ box.lenient.scopeArgument arguments = .ok path := by
  obtain ⟨path, hpath, hchecked⟩ := scopeArgument_eq_ok.1 h
  obtain ⟨⟨location, hscope, hleads⟩, hlenient⟩ := checkedScope_lenient hpolicy hchecked
  exact ⟨path, location, hpath, hscope, hleads, scopeArgument_eq_ok.2 ⟨path, hpath, hlenient⟩⟩

/-- The lenient policy makes the same request in the scope that was given. -/
theorem requestOf_lenient {tool : String} {predicate : Predicate} {scope : Path} {limit : Nat}
    (hpolicy : box.policy = .strict)
    (h : box.requestOf (.tool tool arguments) = .ok (.find predicate scope limit)) :
    ∃ path location, arguments.path "scope" = .ok path ∧ scope = Path.ofLocation location ∧
      box.LeadsTo path location ∧
      box.lenient.requestOf (.tool tool arguments) = .ok (.find predicate path limit) := by
  obtain ⟨hbuilds, hscope, hlimit⟩ := requestOf_tool_eq_ok.1 h
  obtain ⟨path, location, hpath, hlocation, hleads, hlenient⟩ := scopeArgument_lenient hpolicy hscope
  exact ⟨path, location, hpath, hlocation, hleads,
    requestOf_tool_eq_ok.2 ⟨hbuilds.lenient, hlenient, hlimit⟩⟩

/-! ## Files -/

/-- No file in the directory on which the filter holds has just one of its two paths too long, the
canonical one or the one under the scope as it was spelled. -/
def SameReach (box : Toolbox) (path : Path) (location : Location) (limit : Nat)
    (filter : Query.Filter) : Prop :=
  ∀ names file, box.files.Shows (Path.ofLocation location) names file →
    filter.eval (file.source limit) = true →
    Path.isTooLong (names.foldl Path.join path) = Path.isTooLong file.path

namespace LeadsTo

variable {path : Path} {location : Location}

theorem exists_directory (h : box.LeadsTo path location) :
    ∃ node, box.files.at? location = some node ∧ node.isDirectory = true := by
  have hdirectory := h.directory
  cases hat : box.files.at? location with
  | none =>
    rw [hat] at hdirectory
    cases hdirectory
  | some node =>
    rw [hat] at hdirectory
    exact ⟨node, rfl, hdirectory⟩

/-- The directory stands at both scopes, at the given one unless that is too long. -/
theorem exists_scopeNode (h : box.LeadsTo path location) :
    ∃ info entries,
      box.files.scopeNode? (Path.ofLocation location) = some (.directory info entries) ∧
        (Path.isTooLong path = false →
          box.files.scopeNode? path = some (.directory info entries)) := by
  obtain ⟨node, hat, hdirectory⟩ := h.exists_directory
  have hown := FileTree.location?_of_canonical? h.own
  have hpath := FileTree.location?_of_canonical? h.canonical
  have hdirect := FileTree.direct_of_canonical? (Path.isAbsolute_ofLocation location) h.own
  cases node with
  | directory info entries =>
    exact ⟨info, entries,
      FileTree.scopeNode?_of_directory hown hat rfl hdirect.isTooLong_ofLocation,
      FileTree.scopeNode?_of_directory hpath hat rfl⟩
  | _ => cases hdirectory

/-- What the directory shows lies below it, not at it. -/
theorem names_ne_nil (h : box.LeadsTo path location) {names : List FileName} {file : FoundFile}
    (hshows : box.files.Shows (Path.ofLocation location) names file) : names ≠ [] := by
  obtain ⟨info, entries, hnode, -⟩ := h.exists_scopeNode
  obtain ⟨node, hscope, hbelow⟩ := hshows
  obtain rfl := Option.some.inj (hnode.symm.trans hscope)
  obtain ⟨name, child, more, rfl, -⟩ := hbelow.of_directory
  exact List.cons_ne_nil name more

theorem fileName?_under (h : box.LeadsTo path location) {names : List FileName} {file : FoundFile}
    (hshows : box.files.Shows (Path.ofLocation location) names file) :
    Path.fileName? file.path = Path.fileName? (file.under path names).path := by
  obtain ⟨node, hnode, hbelow⟩ := id hshows
  exact FoundFile.fileName?_under (h.names_ne_nil hshows) (hshows.at?_append h.own) hbelow.path_eq

/-- The objects of a file under both scopes. -/
theorem sameButPath (h : box.LeadsTo path location) {names : List FileName} {file : FoundFile}
    (hshows : box.files.Shows (Path.ofLocation location) names file)
    (hlong : Path.isTooLong file.path = false) :
    SameButPath box.files file.object (file.under path names).object := by
  have hname := h.fileName?_under hshows
  refine ⟨fun name hpathName hpath => ?_, (file.under path names).path, location ++ names, ?_, ?_⟩
  · rw [FoundFile.find?_object, FoundFile.find?_object, if_neg hpathName.symm, if_neg hpathName.symm,
      FoundFile.get?_item_eq hname rfl rfl hpath]
  · have hcanonical := (hshows.canonical?_path h.own hlong).1
    rw [hshows.path_ofLocation h.own] at hcanonical
    have hdirect := FileTree.direct_of_canonical? (Path.isAbsolute_ofLocation _) hcanonical
    exact FileTree.canonical?_foldl_join h.absolute h.canonical (h.names_ne_nil hshows) hdirect
      (hshows.at?_append h.own)
  · rw [← hshows.path_ofLocation h.own]
    intro name hmem
    simp only [List.mem_cons, List.not_mem_nil, or_false] at hmem
    rcases hmem with rfl | rfl
    · exact ⟨FoundFile.find?_object _ _, FoundFile.find?_object _ _⟩
    · exact ⟨FoundFile.find?_object_path _, FoundFile.find?_object_path _⟩

/-- A filter that reads no path holds of a file under both scopes or under none. -/
theorem eval_under (h : box.LeadsTo path location) {filter : Query.Filter}
    (hfilter : filter.references Attribute.path = false) (limit : Nat) {names : List FileName}
    {file : FoundFile} (hshows : box.files.Shows (Path.ofLocation location) names file) :
    filter.eval ((file.under path names).source limit) = filter.eval (file.source limit) := by
  refine Query.Filter.eval_congr fun name hname => ?_
  have hpath : name ≠ Attribute.path := by
    rintro rfl
    rw [hfilter] at hname
    cases hname
  exact (FoundFile.source_eq (h.fileName?_under hshows) rfl rfl limit hpath).symm

/-- The same files are found under both scopes. -/
theorem forall₂_objects (h : box.LeadsTo path location) {filter : Query.Filter}
    (hfilter : filter.references Attribute.path = false) (limit : Nat)
    (hreach : box.SameReach path location limit filter) :
    List.Forall₂ (SameButPath box.files)
      ((box.files.filesMatching limit filter [Path.ofLocation location]).map FoundFile.object)
      ((box.files.filesMatching limit filter [path]).map FoundFile.object) := by
  obtain ⟨info, entries, hown, hpath⟩ := h.exists_scopeNode
  have hshort : ∀ file : FoundFile, file.answers limit filter = true →
      Path.isTooLong file.path = false := by
    intro file hanswers
    rw [FoundFile.answers, Bool.and_eq_true] at hanswers
    simpa using hanswers.1
  have hagree : ∀ names file, box.files.Shows (Path.ofLocation location) names file →
      (file.under path names).answers limit filter = file.answers limit filter := by
    intro names file hshows
    rw [FoundFile.answers, FoundFile.answers, h.eval_under hfilter limit hshows]
    cases heval : filter.eval (file.source limit) with
    | false => rw [Bool.and_false, Bool.and_false]
    | true =>
      have hsame := hreach names file hshows heval
      rw [FoundFile.under, hsame]
  obtain ⟨found, hfound, hall, hunder⟩ := FileTree.Lists.under hown hpath hshort hagree
    (box.files.lists_filesMatching limit filter (Path.ofLocation location))
  have hother := (box.files.lists_filesMatching limit filter path).unique hunder
  have hpairs : ∀ way ∈ found,
      SameButPath box.files way.2.object (way.2.under path way.1).object := by
    intro way hway
    obtain ⟨hshows, hanswers⟩ := hall way hway
    exact h.sameButPath hshows (hshort way.2 hanswers)
  rw [← hfound, hother, List.map_map, List.map_map, List.forall₂_map_left_iff,
    List.forall₂_map_right_iff, List.forall₂_same]
  simp only [Function.comp_apply]
  exact hpairs

end LeadsTo

/-! ## Answers -/

/-- **What succeeds under the strict policy succeeds under the lenient one**, and the answers differ in
paths only, if no file has just one of its two paths too long. -/
theorem lenient_of_strict {tool : String}
    (hengine : box.engine = .ofFiles box.files textLimit clock) (hpolicy : box.policy = .strict)
    (hsearch : (Ask.tool tool arguments).IsSearch)
    (hok : (box.call tool arguments).1.isError = false) :
    (box.lenient.call tool arguments).1.isError = false ∧
      ∃ path location predicate filter, arguments.path "scope" = .ok path ∧
        box.files.canonical? path = some location ∧
        box.requestOf (.tool tool arguments) =
          .ok (.find predicate (Path.ofLocation location) (limitOf arguments)) ∧
        box.lenient.requestOf (.tool tool arguments) =
          .ok (.find predicate path (limitOf arguments)) ∧
        Query.parse clock predicate.text = .ok filter ∧
        ∃ objects others : List (Fields Value),
          Value.decode (box.call tool arguments).1.text = .ok (.list (objects.map .map)) ∧
          Value.decode (box.lenient.call tool arguments).1.text = .ok (.list (others.map .map)) ∧
          (box.SameReach path location textLimit filter →
            List.Forall₂ (SameButPath box.files) objects others) := by
  obtain ⟨predicate, scope, filter, hrequest, hparse, hdecode⟩ := decode_of_reply hengine hsearch hok
  obtain ⟨path, location, hpath, rfl, hleads, hlenient⟩ := requestOf_lenient hpolicy hrequest
  have hlenientEngine : box.lenient.engine = .ofFiles box.lenient.files textLimit clock := hengine
  have hreply := reply_of_find hlenientEngine hlenient hparse
  have hfilter := (requestOf_tool_eq_ok.1 hrequest).1.references_path hparse
  have hcall : (box.lenient.call tool arguments).1 =
      ⟨Answer.ofResults (((box.files.filesMatching textLimit filter [path]).take
        (limitOf arguments)).map FoundFile.result), false⟩ := hreply
  refine ⟨by rw [hcall], path, location, predicate, filter, hpath, hleads.canonical, hrequest,
    hlenient, hparse, _,
    ((box.files.filesMatching textLimit filter [path]).take (limitOf arguments)).map FoundFile.object,
    hdecode, ?_, fun hreach => ?_⟩
  · rw [hcall]
    exact Answer.decode_files _
  · have hall := hleads.forall₂_objects hfilter textLimit hreach
    rw [List.map_take, List.map_take]
    exact List.forall₂_take _ hall

/-! ## A scope through links -/

def strictLinkedBox : Toolbox := { linkedBox with policy := .strict }

/-- The scope leads to a directory over another one, up again and through two links. -/
def linkedArguments : Arguments :=
  ⟨[("query", .string "HI"), ("scope", .string "/allowed/docs/../l/")]⟩

/-- The one file that the directory shows, under either spelling. -/
theorem sameReach_linkedFiles (limit : Nat) (filter : Query.Filter) :
    strictLinkedBox.SameReach (ofText "/allowed/docs/../l/") [ofText "allowed", ofText "docs"] limit
      filter := by
  rintro names file ⟨node, hnode, hshows⟩ -
  obtain rfl := Option.some.inj (Eq.trans (by rfl) hnode)
  obtain ⟨name, child, more, rfl, hfind, -, hchild⟩ := hshows.of_directory
  rw [Fields.find?] at hfind
  split at hfind
  case isTrue hname =>
    obtain rfl := Option.some.inj hfind
    cases more with
    | nil =>
      rw [hshows.path_eq, ← hname]
      decide
    | cons next more =>
      have hnone := hchild.at_names
      cases hnone
  case isFalse =>
    rw [Fields.find?] at hfind
    split at hfind
    case isTrue =>
      obtain rfl := Option.some.inj hfind
      exact absurd rfl (hchild.ne_link _)
    case isFalse => cases hfind

/-- What is found in the directory under its own path. -/
def strictFound : List FoundFile := [linkedText "/allowed/docs/a.txt"]

theorem decode_strictLinked :
    Value.decode (strictLinkedBox.call "search" linkedArguments).1.text =
      .ok (.list ((strictFound.map FoundFile.object).map .map)) := by
  have hrequest : strictLinkedBox.requestOf (.tool "search" linkedArguments) =
      .ok (.find (Predicate.naturalText "HI") (ofText "/allowed/docs") 100) :=
    Outcome.toOption_eq_some.1 (by decide +kernel)
  have hfiles : (Query.parse ⟨0, 0⟩ (Predicate.naturalText "HI").text).toOption.map (fun filter =>
      (linkedFiles.filesMatching 16 filter [ofText "/allowed/docs"]).take 100) = some strictFound := by
    decide +kernel
  rw [← reply_tool]
  exact decode_of_find rfl hrequest hfiles

theorem decode_lenientLinked :
    Value.decode (strictLinkedBox.lenient.call "search" linkedArguments).1.text =
      .ok (.list ((linkedFound.map FoundFile.object).map .map)) := by
  have hrequest : strictLinkedBox.lenient.requestOf (.tool "search" linkedArguments) =
      .ok (.find (Predicate.naturalText "HI") (ofText "/allowed/docs/../l/") 100) :=
    Outcome.toOption_eq_some.1 (by decide +kernel)
  have hfiles : (Query.parse ⟨0, 0⟩ (Predicate.naturalText "HI").text).toOption.map (fun filter =>
      (linkedFiles.filesMatching 16 filter [ofText "/allowed/docs/../l/"]).take 100) =
        some linkedFound := by
    decide +kernel
  rw [← reply_tool]
  exact decode_of_find rfl hrequest hfiles

theorem eq_of_decode {text : String} {objects others : List (Fields Value)}
    (h : Value.decode text = .ok (.list (objects.map .map)))
    (hother : Value.decode text = .ok (.list (others.map .map))) : objects = others := by
  have hlists := Value.list.inj (Except.ok.inj (h.symm.trans hother))
  exact List.map_injective_iff.2 (fun _ _ => Value.map.inj) hlists

theorem lenient_of_strict_linkedFiles :
    strictLinkedBox.policy = .strict ∧ (Ask.tool "search" linkedArguments).IsSearch ∧
      (strictLinkedBox.call "search" linkedArguments).1.isError = false ∧
      (strictLinkedBox.lenient.call "search" linkedArguments).1.isError = false ∧
      Value.decode (strictLinkedBox.call "search" linkedArguments).1.text =
        .ok (.list ((strictFound.map FoundFile.object).map .map)) ∧
      Value.decode (strictLinkedBox.lenient.call "search" linkedArguments).1.text =
        .ok (.list ((linkedFound.map FoundFile.object).map .map)) ∧
      List.Forall₂ (SameButPath linkedFiles) (strictFound.map FoundFile.object)
        (linkedFound.map FoundFile.object) := by
  have hsearch : (Ask.tool "search" linkedArguments).IsSearch := by
    rw [Ask.IsSearch]
    decide
  have hok : (strictLinkedBox.call "search" linkedArguments).1.isError = false := by decide +kernel
  have hengine : strictLinkedBox.engine = .ofFiles strictLinkedBox.files 16 ⟨0, 0⟩ := rfl
  obtain ⟨hlenient, path, location, predicate, filter, hpath, hlocation, -, -, -, objects, others,
    hobjects, hothers, hsame⟩ :=
      lenient_of_strict hengine rfl hsearch hok
  have hgiven : linkedArguments.path "scope" = .ok (ofText "/allowed/docs/../l/") :=
    Outcome.toOption_eq_some.1 (by decide +kernel)
  have hcanonical : linkedFiles.canonical? (ofText "/allowed/docs/../l/") =
      some [ofText "allowed", ofText "docs"] := by
    decide +kernel
  obtain rfl : path = ofText "/allowed/docs/../l/" := Except.ok.inj (hpath.symm.trans hgiven)
  obtain rfl : location = [ofText "allowed", ofText "docs"] :=
    Option.some.inj (hlocation.symm.trans hcanonical)
  obtain rfl := eq_of_decode hobjects decode_strictLinked
  obtain rfl := eq_of_decode hothers decode_lenientLinked
  exact ⟨rfl, hsearch, hok, hlenient, hobjects, hothers, hsame (sameReach_linkedFiles 16 filter)⟩

/-! ## A long spelling -/

def oneFileBox : Toolbox := ⟨.ofFiles oneFile 16 ⟨0, 0⟩, oneFile, .strict, [], ⟨0, 0⟩⟩

def dottedArguments : Arguments :=
  ⟨[("kind", .string "document"), ("scope", .string (dots 2046).text)]⟩

theorem isText_dots (n : Nat) : (dots n).IsText := by
  have hlast : Path.IsText [slash, dot] := ⟨"/.", by decide⟩
  induction n with
  | zero => exact hlast
  | succ n ih => exact ih.append hlast

theorem path_dotted : dottedArguments.path "scope" = .ok (dots 2046) := by
  have htext := isText_dots 2046
  refine Arguments.path_eq_ok.2 ⟨(dots 2046).text, ?_, (Path.isText_iff.1 htext).symm, isAbsolute_dots 2046⟩
  exact Arguments.text_of_get? rfl (htext.text_ne_empty (dots_ne_empty 2046))

theorem requestOf_dotted :
    oneFileBox.requestOf (.tool "search_by_kind" dottedArguments) =
      .ok (.find (Predicate.ofKind .document) (ofText "/") 100) := by
  have hname : dottedArguments.text "kind" = .ok "document" :=
    Arguments.text_of_get? rfl (by decide)
  have hkind : Kind.ofName? "document" = some .document := by decide +kernel
  have hscope : oneFile.scope (dots 2046) = .ok [] := by
    rw [FileTree.scope, FileTree.canonical?_dots]
    rfl
  have haccepted : oneFile.withinAny [] (ofText "/") = .ok [] :=
    Outcome.toOption_eq_some.1 (by decide +kernel)
  have hchecked : oneFileBox.checkedScope (dots 2046) = .ok (ofText "/") :=
    checkedScope_eq_ok.2 ⟨isAbsolute_dots 2046, ⟨[], hscope, by decide⟩, [], haccepted⟩
  have hvetted : oneFileBox.scopeArgument dottedArguments = .ok (ofText "/") :=
    scopeArgument_eq_ok.2 ⟨_, path_dotted, hchecked⟩
  exact requestOf_tool_eq_ok.2 ⟨.kind hname hkind, hvetted, by decide +kernel⟩

/-- **A long spelling of the scope hides the file from the lenient policy only.** -/
theorem lenient_of_strict_dots :
    (oneFileBox.call "search_by_kind" dottedArguments).1.isError = false ∧
      Value.decode (oneFileBox.call "search_by_kind" dottedArguments).1.text =
        .ok (.list [.map (oneFileIn (ofText "/")).object]) ∧
      (oneFileBox.lenient.call "search_by_kind" dottedArguments).1.isError = false ∧
      Value.decode (oneFileBox.lenient.call "search_by_kind" dottedArguments).1.text =
        .ok (.list []) := by
  have hholds : (Query.parse ⟨0, 0⟩ (Predicate.ofKind .document).text).toOption.map (fun filter =>
      (oneFileIn (ofText "/")).answers 16 filter) = some true := by
    decide +kernel
  obtain ⟨filter, hfilter, hanswers⟩ := Option.map_eq_some_iff.1 hholds
  have hparse := Outcome.toOption_eq_some.1 hfilter
  have hroot : oneFileBox.files.visibleFiles (ofText "/") = [oneFileIn (ofText "/")] :=
    visibleFiles_oneFile rfl (by decide)
  have hone : oneFileBox.files.filesMatching 16 filter [ofText "/"] = [oneFileIn (ofText "/")] := by
    rw [FileTree.filesMatching_singleton, hroot, List.filter_cons_of_pos hanswers, List.filter_nil]
  obtain ⟨path, location, hpath, -, -, hrequest⟩ := requestOf_lenient rfl requestOf_dotted
  have hgiven : path = dots 2046 := Except.ok.inj (hpath.symm.trans path_dotted)
  rw [hgiven] at hrequest
  have hengine : oneFileBox.engine = .ofFiles oneFileBox.files 16 ⟨0, 0⟩ := rfl
  have hlenientEngine : oneFileBox.lenient.engine = .ofFiles oneFileBox.lenient.files 16 ⟨0, 0⟩ := rfl
  have hstrict := reply_of_find hengine requestOf_dotted hparse
  have hlenient := reply_of_find hlenientEngine hrequest hparse
  have hnone : oneFileBox.lenient.files.filesMatching 16 filter [dots 2046] = [] :=
    filesMatching_dots oneFile 16 filter
  rw [hone, List.take_of_length_le (by decide)] at hstrict
  rw [hnone, List.take_nil] at hlenient
  rw [reply_tool] at hstrict hlenient
  rw [hstrict, hlenient]
  exact ⟨rfl, Answer.decode_files [oneFileIn (ofText "/")], rfl, Answer.decode_files []⟩

end Toolbox

end MetadataSearch
