import MetadataSearch.Proofs.FileTree.Canonical
import MetadataSearch.Proofs.Text.Trimming
import MetadataSearch.Settings

/-!
# The fence that settings set up

**Theorem (`withinAny_roots_iff`).** For a value of the variable of roots, a path is accepted if it
settles at or below one of the absolute entries of that value; if no entry is absolute, there is no
fence, and every absolute path is accepted.

The settings cut the blanks around the whole value before they split it, and the blanks around each
entry after that. A blank is no colon, so it belongs to the first or to the last entry, from which it
would be cut anyhow (`entriesOf_trim`).

A value whose entries are all relative sets up no fence at all (`withinAny_relativeRoots`).
-/

namespace MetadataSearch

open MetadataSearch.Path (ofText)

namespace Settings

/-! ## Entries -/

/-- The entries of a text, which have colons between them and may have blanks around them. -/
def entriesOf (text : List Char) : List Path :=
  (text.splitOn ':').map fun entry => Text.encode (Text.trim entry)

theorem isBlank_colon : Text.isBlank ':' = false := by decide

theorem entriesOf_cons_blank {c : Char} (hc : Text.isBlank c = true) (text : List Char) :
    entriesOf (c :: text) = entriesOf text := by
  have hcolon : ¬ (c == ':') = true := by
    intro h
    rw [beq_iff_eq.1 h, isBlank_colon] at hc
    cases hc
  rw [entriesOf, entriesOf, List.splitOn_cons_eq_if_modifyHead, if_neg hcolon]
  obtain ⟨first, rest, hsplit⟩ := List.exists_cons_of_ne_nil (List.splitOn_ne_nil ':' text)
  rw [hsplit, List.modifyHead_cons, List.map_cons, List.map_cons, Text.trim_cons_blank hc]

theorem entriesOf_append_colon (front back : List Char) :
    entriesOf (front ++ ':' :: back) = entriesOf front ++ entriesOf back := by
  rw [entriesOf, List.splitOn_append_cons_self, List.map_append]
  rfl

theorem entriesOf_append_blank {c : Char} (hc : Text.isBlank c = true) (text : List Char) :
    entriesOf (text ++ [c]) = entriesOf text := by
  by_cases hcolon : ':' ∈ text
  · -- The blank is part of what follows the colon, which is shorter.
    obtain ⟨front, back, htext⟩ := List.append_of_mem hcolon
    have hshorter : back.length < text.length := by
      rw [htext, List.length_append, List.length_cons]
      omega
    rw [htext, List.append_assoc, List.cons_append, entriesOf_append_colon, entriesOf_append_colon,
      entriesOf_append_blank hc back]
  · have hblank : ':' ∉ text ++ [c] := by
      intro hmem
      rcases List.mem_append.1 hmem with hmem | hmem
      · exact hcolon hmem
      · rw [← List.mem_singleton.1 hmem, isBlank_colon] at hc
        cases hc
    rw [entriesOf, entriesOf, List.splitOn_eq_singleton hcolon, List.splitOn_eq_singleton hblank,
      List.map_singleton, List.map_singleton, Text.trim_append_blank hc]
termination_by text.length

/-- Blanks around the whole text make no difference to its entries. -/
theorem entriesOf_trim (text : List Char) : entriesOf (Text.trim text) = entriesOf text :=
  Text.eq_of_trim (fun _ text hc => entriesOf_cons_blank hc text)
    (fun _ text hc => entriesOf_append_blank hc text) text

/-! ## Roots -/

/-- The roots among the settings are the absolute entries of the value as it stands. -/
theorem roots_ofEnvironment {environment : Environment} {value : String}
    (hvalue : environment rootsVariable = some value) :
    (ofEnvironment environment).roots = (entriesOf value.toList).filter Path.isAbsolute := by
  have hread : readRoots (trimmed value) = (entriesOf value.toList).filter Path.isAbsolute := by
    rw [readRoots, trimmed, String.toList_ofList, ← entriesOf_trim value.toList]
    rfl
  have hsetting : setting? environment rootsVariable = (some (trimmed value)).filter (· != "") := by
    rw [setting?, hvalue, Option.map_some]
  show ((setting? environment rootsVariable).bind (some ∘ readRoots)).getD default.roots = _
  rw [hsetting, ← hread]
  by_cases hblank : trimmed value = ""
  · -- A blank value counts as not set; it has one entry, which is empty.
    have hnone : readRoots "" = [] := by decide
    rw [hblank, hnone]
    rfl
  · rw [Option.filter_some, if_pos (bne_iff_ne.2 hblank), Option.bind_some, Function.comp_apply,
      Option.getD_some]

/-- The path settles at or below one of the absolute entries of a value. -/
def WithinEntry (files : FileTree) (value : String) (location : Location) : Prop :=
  ∃ entry ∈ entriesOf value.toList, Path.isAbsolute entry = true ∧
    ∃ fence, files.settle? entry = some fence ∧ fence <+: location

theorem fenced_iff {files : FileTree} {value : String} {location : Location} :
    files.Fenced ((entriesOf value.toList).filter Path.isAbsolute) location ↔
      WithinEntry files value location := by
  constructor
  · rintro ⟨entry, hentry, h⟩
    obtain ⟨hmem, habs⟩ := List.mem_filter.1 hentry
    exact ⟨entry, hmem, habs, h⟩
  · rintro ⟨entry, hmem, habs, h⟩
    exact ⟨entry, List.mem_filter.2 ⟨hmem, habs⟩, h⟩

/-- **The fence of a value.** With an absolute entry among those of the value, the paths that are
accepted are those that settle at or below one; with none, all absolute paths are. -/
theorem withinAny_roots_iff {environment : Environment} {value : String}
    (hvalue : environment rootsVariable = some value) (files : FileTree) (programs : IndexPrograms)
    (now : Instant) (path : Path) (location : Location) :
    let box := (ofEnvironment environment).toolbox files programs now
    box.files.withinAny box.roots path = .ok location ↔
      files.settle? path = some location ∧
        ((∃ entry ∈ entriesOf value.toList, Path.isAbsolute entry = true) →
          WithinEntry files value location) := by
  intro box
  show files.withinAny (ofEnvironment environment).roots path = .ok location ↔ _
  rw [roots_ofEnvironment hvalue]
  by_cases hany : ∃ entry ∈ entriesOf value.toList, Path.isAbsolute entry = true
  · obtain ⟨entry, hentry, habs⟩ := hany
    have hroots : (entriesOf value.toList).filter Path.isAbsolute ≠ [] :=
      List.ne_nil_of_mem (List.mem_filter.2 ⟨hentry, habs⟩)
    rw [FileTree.withinAny_eq_ok_iff hroots, fenced_iff]
    exact and_congr_right fun _ => ⟨fun h _ => h, fun h => h ⟨entry, hentry, habs⟩⟩
  · have hroots : (entriesOf value.toList).filter Path.isAbsolute = [] :=
      List.filter_eq_nil_iff.2 fun entry hentry habs => hany ⟨entry, hentry, habs⟩
    rw [hroots]
    show files.settled path = .ok location ↔ _
    rw [FileTree.settled_eq_ok]
    exact ⟨fun h => ⟨h, fun hsome => absurd hsome hany⟩, fun h => h.1⟩

/-! ## Two values -/

/-- Only the variable of roots is set. -/
def environmentOfRoots (value : String) : Environment := fun name =>
  if name = rootsVariable then some value else none

/-- A link beside the directory it leads to. -/
def linkedDocs : FileTree where
  info := ⟨⟨⟨0, 0⟩, none⟩, 64⟩
  entries :=
    [(ofText "docs", .directory ⟨⟨⟨0, 0⟩, none⟩, 64⟩ [(ofText "a.txt", .file [104, 105] ⟨⟨1, 0⟩, none⟩)]),
      (ofText "l", .link (ofText "docs"))]
  workingDirectory := []
  wellFormed := by
    simp only [Node.WellFormed, Node.EntriesWellFormed, Fields.Ascending, Fields.names]
    decide

/-- No program of the index can be started. -/
def noPrograms : IndexPrograms := ⟨fun _ => .error "", fun _ => .error ""⟩

def linkedBox (value : String) : Toolbox :=
  (ofEnvironment (environmentOfRoots value)).toolbox linkedDocs noPrograms ⟨0, 0⟩

/-- A value with blanks, a relative entry and a link, and a path that goes up and through the link. -/
theorem withinAny_roots_iff_mixed :
    environmentOfRoots " relative :/l : " rootsVariable = some " relative :/l : " ∧
      (linkedBox " relative :/l : ").files.withinAny (linkedBox " relative :/l : ").roots
        (ofText "/docs/../l/new") = .ok [ofText "docs", ofText "new"] ∧
      WithinEntry linkedDocs " relative :/l : " [ofText "docs", ofText "new"] := by
  have hvalue : environmentOfRoots " relative :/l : " rootsVariable = some " relative :/l : " := rfl
  have haccepted : (linkedBox " relative :/l : ").files.withinAny
      (linkedBox " relative :/l : ").roots (ofText "/docs/../l/new") = .ok [ofText "docs", ofText "new"] :=
    Outcome.toOption_eq_some.1 (by decide +kernel)
  have hentry : ∃ entry ∈ entriesOf " relative :/l : ".toList, Path.isAbsolute entry = true := by
    decide
  have hiff := withinAny_roots_iff hvalue linkedDocs noPrograms ⟨0, 0⟩ (ofText "/docs/../l/new")
    [ofText "docs", ofText "new"]
  exact ⟨hvalue, haccepted, (hiff.1 haccepted).2 hentry⟩

/-- **Relative entries alone set up no fence.** The value has an entry that is not blank, and yet a
path is accepted that is within no absolute entry. -/
theorem withinAny_relativeRoots :
    environmentOfRoots "docs" rootsVariable = some "docs" ∧
      (∃ entry ∈ entriesOf "docs".toList, entry ≠ []) ∧ Path.isAbsolute (ofText "/l") = true ∧
      (linkedBox "docs").files.withinAny (linkedBox "docs").roots (ofText "/l") = .ok [ofText "docs"] ∧
      ¬ WithinEntry linkedDocs "docs" [ofText "docs"] := by
  have hrelative : ∀ entry ∈ entriesOf "docs".toList, Path.isAbsolute entry = false := by decide
  refine ⟨rfl, by decide, rfl, Outcome.toOption_eq_some.1 (by decide +kernel), ?_⟩
  rintro ⟨entry, hentry, habs, -⟩
  rw [hrelative entry hentry] at habs
  cases habs

end Settings

end MetadataSearch
