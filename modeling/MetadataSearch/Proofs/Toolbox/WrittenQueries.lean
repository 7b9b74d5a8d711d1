import MetadataSearch.Engine.Files
import MetadataSearch.Proofs.Toolbox.Vetting

/-!
# Tools as written queries

**Theorem (`call_eq_callRaw`).** A tool that searches for a query of its own does what the caller would
have done with the same query, scope and limit: the answer is the same, and so are the calls on the
engine, in their order.

`AsksFor` says which query a tool builds from its arguments. The tool reads its scope from the arguments
and checks it there, the written query is given the path and checks that; both checks come to the same
(`scopeArgument_eq_checkedScope`). What is left of either is a search for a predicate, and a search looks
only at the text of that, not at who wrote it (`answer_map_find`).
-/

namespace MetadataSearch

open MetadataSearch.Path (ofText)

/-! ## Built queries -/

theorem Predicate.raw_of_not_blank {c : Char} {text : String} (hc : Text.isBlank c = false)
    (h : text.toList.head? = some c) : raw text = .ok ⟨text, .raw⟩ := by
  have hall : text.toList.all Text.isBlank = false := by
    cases htext : text.toList with
    | nil => simp [htext] at h
    | cons d rest =>
      obtain rfl : d = c := by simpa [htext] using h
      simp [hc]
  rw [raw, if_neg (by simp [hall])]

theorem Kind.ne_empty_of_ofName? {name : String} {kind : Kind} (h : ofName? name = some kind) :
    name ≠ "" := by
  rintro rfl
  have hnone : ofName? "" = none := by decide +kernel
  rw [hnone] at h
  cases h

namespace Toolbox

/-- The query that a tool builds from its arguments. -/
inductive AsksFor (arguments : Arguments) : (tool : String) → (query : String) → Prop
  | text {text : String} (htext : arguments.get? "query" = some (.string text)) (hne : text ≠ "") :
      AsksFor arguments "search" (Predicate.naturalText text).text
  | kind {name : String} {kind : Kind} (hname : arguments.get? "kind" = some (.string name))
      (hkind : Kind.ofName? name = some kind) :
      AsksFor arguments "search_by_kind" (Predicate.ofKind kind).text
  | since {date : String} {t : Instant} (hdate : arguments.get? "since" = some (.string date))
      (ht : readSince? date = some t) :
      AsksFor arguments "recent_files" (Predicate.modifiedSince t.format).text

variable {box : Toolbox} {arguments : Arguments} {tool query scope : String}

/-- A built query starts with the name of an attribute, so it is not blank. -/
theorem raw_of_asksFor (h : AsksFor arguments tool query) :
    Predicate.raw query = .ok ⟨query, .raw⟩ := by
  have hk : Text.isBlank 'k' = false := by decide
  cases h <;> exact Predicate.raw_of_not_blank hk (by simp [Predicate.naturalText, Predicate.ofKind,
    Predicate.modifiedSince, Attribute.textContent, Attribute.contentTypeTree,
    Attribute.contentModificationDate])

/-! ## The scope -/

theorem vetRaw_eq {predicate : Predicate} {path : Path} (limit : Option Int64)
    (h : Predicate.raw query = .ok predicate) :
    box.vetRaw query path limit =
      (box.checkedScope path).map fun checked => .find predicate checked (Limit.ofRequest limit) := by
  rw [vetRaw, h]
  cases box.checkedScope path <;> rfl

/-- A tool goes on to search in the scope that it was given. -/
theorem requestOf_of_asksFor (box : Toolbox) (h : AsksFor arguments tool query)
    (hscope : arguments.get? "scope" = some (.string scope)) (hne : scope ≠ "") :
    ∃ predicate : Predicate, predicate.text = query ∧ box.requestOf (.tool tool arguments) =
      (box.checkedScope (Path.ofText scope)).map fun checked =>
        .find predicate checked (limitOf arguments) := by
  have hchecked : box.scopeArgument arguments = box.checkedScope (Path.ofText scope) :=
    scopeArgument_eq_checkedScope (Arguments.text_of_get? hscope hne)
  cases h with
  | @text text htext hne =>
    refine ⟨Predicate.naturalText text, rfl, ?_⟩
    show box.vetSearch arguments = _
    rw [vetSearch, Arguments.text_of_get? htext hne, hchecked]
    cases box.checkedScope (Path.ofText scope) <;> rfl
  | @kind name kind hname hkind =>
    refine ⟨Predicate.ofKind kind, rfl, ?_⟩
    show box.vetSearchByKind arguments = _
    have htext := Arguments.text_of_get? hname (Kind.ne_empty_of_ofName? hkind)
    cases hgiven : box.checkedScope (Path.ofText scope) with
    | error e =>
      rw [vetSearchByKind, htext, hchecked, hgiven]
      rfl
    | ok checked =>
      exact vetSearchByKind_eq_ok.2
        ⟨name, checked, kind, htext, hchecked.trans hgiven, hkind, rfl⟩
  | @since date t hdate ht =>
    refine ⟨Predicate.modifiedSince t.format, rfl, ?_⟩
    have hsince : box.sinceOf arguments = .ok t := by
      simp [sinceOf, Arguments.text?_of_get? hdate, ht]
    show box.vetRecentFiles arguments = _
    rw [vetRecentFiles, hsince, hchecked]
    cases box.checkedScope (Path.ofText scope) <;> rfl

/-! ## The answer -/

/-- A search looks at the text of its predicate only. -/
theorem answer_map_find {p q : Predicate} (h : p.text = q.text) (limit : Nat)
    (checked : Except ToolError Path) :
    box.answer (checked.map fun scope => .find p scope limit) =
      box.answer (checked.map fun scope => .find q scope limit) := by
  cases checked with
  | error e => rfl
  | ok scope =>
    show box.answer (.ok (.find p scope limit)) = box.answer (.ok (.find q scope limit))
    simp only [answer, perform_find, h]

/-- **A tool answers as the written query that it stands for.** -/
theorem call_eq_callRaw (box : Toolbox) (h : AsksFor arguments tool query)
    (hscope : arguments.get? "scope" = some (.string scope)) (hne : scope ≠ "") :
    box.call tool arguments = box.callRaw query (Path.ofText scope) (arguments.integer? "limit") := by
  obtain ⟨predicate, htext, hrequest⟩ := requestOf_of_asksFor box h hscope hne
  have hcall : box.call tool arguments = box.answer (box.requestOf (.tool tool arguments)) := rfl
  rw [hcall, hrequest, callRaw, vetRaw_eq _ (raw_of_asksFor h)]
  exact answer_map_find htext _ _

/-! ## Pictures behind a link -/

/-- A directory of two files, and a link to it. -/
def pictureFiles : FileTree where
  info := ⟨⟨⟨0, 0⟩, none⟩, 64⟩
  entries :=
    [(ofText "album", .directory ⟨⟨⟨0, 0⟩, none⟩, 64⟩
        [(ofText "a.PNG", .file [1, 2] ⟨⟨5, 0⟩, none⟩), (ofText "b.txt", .file [104, 105] ⟨⟨6, 0⟩, none⟩)]),
      (ofText "l", .link (ofText "album"))]
  workingDirectory := []
  wellFormed := by
    simp only [Node.WellFormed, Node.EntriesWellFormed, Fields.Ascending, Fields.names]
    decide

def pictureBox : Toolbox :=
  ⟨.ofFiles pictureFiles 16 ⟨0, 0⟩, pictureFiles, .strict, [ofText "/none", ofText "/album"], ⟨0, 0⟩⟩

/-- The kind in capital letters, a limit below the least, and a scope that the policy replaces. One picture is
found. -/
def pictureArguments : Arguments :=
  ⟨[("kind", .string "IMAGE"), ("limit", .integer (-3)), ("scope", .string "/l")]⟩

theorem call_eq_callRaw_pictures :
    AsksFor pictureArguments "search_by_kind" "kMDItemContentTypeTree == \"public.image\"" ∧
      pictureArguments.get? "scope" = some (.string "/l") ∧ "/l" ≠ "" ∧
      (pictureBox.call "search_by_kind" pictureArguments).1.isError = false ∧
      (pictureBox.call "search_by_kind" pictureArguments).2 =
        [.prepare "kMDItemContentTypeTree == \"public.image\"", .setScopes [ofText "/album"], .read 0] ∧
      pictureBox.call "search_by_kind" pictureArguments =
        pictureBox.callRaw "kMDItemContentTypeTree == \"public.image\"" (ofText "/l") (some (-3)) := by
  have hkind : Kind.ofName? "IMAGE" = some .image := by decide +kernel
  have hasks : AsksFor pictureArguments "search_by_kind"
      "kMDItemContentTypeTree == \"public.image\"" := .kind rfl hkind
  have hlimit : pictureArguments.integer? "limit" = some (-3) := by decide +kernel
  have hscope : pictureArguments.get? "scope" = some (.string "/l") := rfl
  have hne : "/l" ≠ "" := by decide
  refine ⟨hasks, hscope, hne, by decide +kernel, by decide +kernel, ?_⟩
  rw [call_eq_callRaw pictureBox hasks hscope hne, hlimit]

end Toolbox

end MetadataSearch
