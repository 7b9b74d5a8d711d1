import MetadataSearch.Proofs.FileTree.Canonical
import MetadataSearch.Proofs.FileTree.OwnPath
import MetadataSearch.Proofs.Text.Trimming

/-!
# Settling twice

**Theorem (`exists_settle?`).** Every absolute path settles, and at its canonical location if it has one.
The path of the place where it settles is absolute and without dots, and settles at that place again.

Settling keeps a name of which no location is found, so the place may lead nowhere, or through links that
were kept because they loop or dangle. The invariant is that the place is `Settled`: whoever goes to it
from the root, name by name, is not led elsewhere. What a look-up finds is direct, and a direct location is
settled since all that is on the way to it is direct. A name is kept because nothing was found under the
names so far, and nothing will be found under them the next time. Going up takes the last name away, and
the places on the way to a settled one are settled.
-/

namespace MetadataSearch

open MetadataSearch.Path (Step slash ofText)

/-! ## Steps of a path -/

/-- A path leads down to plain names. -/
theorem Path.isPlain_of_mem_steps {path : Path} {name : FileName} (h : Step.down name ∈ steps path) :
    IsPlain name := by
  obtain ⟨part, hpart, hstep⟩ := List.mem_map.1 h
  have hslash : slash ∉ part := Text.not_mem_of_mem_splitOn hpart
  rw [Step.ofPart] at hstep
  split at hstep
  case isTrue => cases hstep
  case isFalse hstay =>
    split at hstep
    case isTrue => cases hstep
    case isFalse hup =>
      obtain rfl := Step.down.inj hstep
      rw [not_or] at hstay
      exact ⟨hstay.1, hstay.2, hup, hslash⟩

namespace FileTree

variable {t : FileTree}

/-! ## Settled places -/

/-- A place with plain names to which every step down on the way leads. -/
structure Settled (t : FileTree) (here : Location) : Prop where
  plain : ∀ name ∈ here, Path.IsPlain name
  keeps : ∀ outer name, outer ++ [name] <+: here → t.settleStep outer (.down name) = outer ++ [name]

theorem Settled.of_prefix {outer here : Location} (h : t.Settled here) (houter : outer <+: here) :
    t.Settled outer where
  plain name hname := h.plain name (houter.subset hname)
  keeps between name hbetween := h.keeps between name (hbetween.trans houter)

/-- **A settled place is where its own names settle.** -/
theorem Settled.foldl_names {here : Location} (h : t.Settled here) :
    (here.map .down).foldl t.settleStep [] = here := by
  induction here using List.reverseRecOn with
  | nil => rfl
  | append_singleton outer name ih =>
    rw [List.map_append, List.foldl_append, ih (h.of_prefix (List.prefix_append _ _))]
    exact h.keeps outer name List.prefix_rfl

theorem Direct.settled {here : Location} (h : t.Direct underOwnPath here) : t.Settled here where
  plain := by
    obtain ⟨node, hnode⟩ := h.exists_at?
    intro name hname
    exact (isName_of_at? hnode name hname).isPlain
  keeps := by
    intro outer name houter
    have hfound : t.locateByPath [] ((outer ++ [name]).map .down) = some (outer ++ [name]) :=
      follow_of_route ((h.of_prefix houter).mono_links (Nat.zero_le _))
    rw [settleStep, hfound, Option.getD_some]

/-- A name that is kept because nothing is found under it will not be found later. -/
theorem Settled.append_kept {here : Location} {name : FileName} (h : t.Settled here)
    (hname : Path.IsPlain name) (hkept : t.settleStep here (.down name) = here ++ [name]) :
    t.Settled (here ++ [name]) where
  plain := by
    intro other hother
    rcases List.mem_append.1 hother with hbefore | hlast
    · exact h.plain other hbefore
    · rwa [List.mem_singleton.1 hlast]
  keeps := by
    intro outer other houter
    rcases List.prefix_concat_iff.1 houter with hlast | hbefore
    · obtain ⟨rfl, hsame⟩ := List.append_inj' hlast rfl
      obtain rfl := List.singleton_inj.1 hsame
      exact hkept
    · exact h.keeps outer other hbefore

/-- **A step leads from a settled place to a settled one.** -/
theorem Settled.settleStep {here : Location} (h : t.Settled here) {step : Step}
    (hstep : ∀ name, step = .down name → Path.IsPlain name) : t.Settled (t.settleStep here step) := by
  cases step with
  | stay => exact h
  | up => exact h.of_prefix (List.dropLast_prefix here)
  | down name =>
    cases hfound : t.locateByPath [] ((here ++ [name]).map .down) with
    | some location =>
      have hroute := follow_eq_some_iff.1 hfound
      rw [FileTree.settleStep, hfound, Option.getD_some]
      exact (direct_nil.of_route hroute).settled
    | none =>
      have hkept : t.settleStep here (.down name) = here ++ [name] := by
        rw [FileTree.settleStep, hfound, Option.getD_none]
      rw [hkept]
      exact h.append_kept (hstep name rfl) hkept

theorem Settled.foldl_steps {steps : List Step} {here : Location} (h : t.Settled here)
    (hsteps : ∀ name, Step.down name ∈ steps → Path.IsPlain name) :
    t.Settled (steps.foldl t.settleStep here) := by
  induction steps generalizing here with
  | nil => exact h
  | cons step rest ih =>
    have hnext := h.settleStep fun name hname => hsteps name (hname ▸ List.mem_cons_self)
    exact ih hnext fun name hname => hsteps name (List.mem_cons_of_mem _ hname)

/-! ## Paths -/

theorem foldl_settleStep_still {still : List Step} (hstill : ∀ step ∈ still, step = Step.stay)
    (here : Location) : still.foldl t.settleStep here = here := by
  induction still with
  | nil => rfl
  | cons step still ih =>
    obtain rfl := hstill step List.mem_cons_self
    exact ih fun other hother => hstill other (List.mem_cons_of_mem _ hother)

/-- The path of a settled place settles there. -/
theorem Settled.settle?_ofLocation {here : Location} (h : t.Settled here) :
    t.settle? (Path.ofLocation here) = some here := by
  obtain ⟨still, hstill, hsteps⟩ := Path.steps_ofLocation h.plain
  rw [settle?, if_pos (Path.isAbsolute_ofLocation here), hsteps, List.foldl_append,
    foldl_settleStep_still hstill, h.foldl_names]

/-- **Settling is canonical, and settling twice is settling once.** -/
theorem exists_settle? (t : FileTree) {path : Path} (habs : Path.isAbsolute path = true) :
    ∃ location, t.settle? path = some location ∧
      (∀ canonical, t.canonical? path = some canonical → location = canonical) ∧
      Path.isAbsolute (Path.ofLocation location) = true ∧
      (∀ part ∈ Path.parts (Path.ofLocation location), part ≠ [Path.dot] ∧ part ≠ [Path.dot, Path.dot]) ∧
      t.settle? (Path.ofLocation location) = some location := by
  have hsettle : t.settle? path = some ((Path.steps path).foldl t.settleStep []) := by
    rw [settle?, if_pos habs]
  have hsettled : t.Settled ((Path.steps path).foldl t.settleStep []) :=
    Settled.foldl_steps direct_nil.settled fun name hname => Path.isPlain_of_mem_steps hname
  refine ⟨_, hsettle, ?_, Path.isAbsolute_ofLocation _, ?_, hsettled.settle?_ofLocation⟩
  · intro canonical hcanonical
    exact Option.some.inj (hsettle.symm.trans (settle?_of_canonical? habs hcanonical))
  · obtain ⟨empties, hempties, hparts⟩ := Path.parts_ofLocation hsettled.plain
    intro part hpart
    rw [hparts] at hpart
    rcases List.mem_append.1 hpart with hempty | hname
    · rw [hempties part hempty]
      decide
    · exact ⟨(hsettled.plain part hname).2.1, (hsettled.plain part hname).2.2.1⟩

/-! ## Links that lead nowhere -/

/-- A directory with a file, a link to it, a link to nothing and a link to itself. -/
def strayLinks : FileTree where
  info := ⟨⟨⟨0, 0⟩, none⟩, 64⟩
  entries :=
    [(ofText "docs", .directory ⟨⟨⟨0, 0⟩, none⟩, 64⟩
        [(ofText "a.txt", .file [104, 105] ⟨⟨1, 0⟩, none⟩)]),
      (ofText "gone", .link (ofText "nowhere")), (ofText "l", .link (ofText "docs")),
      (ofText "loop", .link (ofText "loop"))]
  workingDirectory := []
  wellFormed := by
    simp only [Node.WellFormed, Node.EntriesWellFormed, Fields.Ascending, Fields.names]
    decide

/-- Through a missing directory and back, through a link, and down a loop: what is kept has links and
names that nothing is found under. -/
theorem exists_settle?_strayLinks :
    Path.isAbsolute (ofText "/missing/../l/../loop/./gone") = true ∧
      strayLinks.settle? (ofText "/missing/../l/../loop/./gone") =
        some [ofText "loop", ofText "gone"] ∧
      strayLinks.settle? (ofText "/loop/gone") = some [ofText "loop", ofText "gone"] ∧
      strayLinks.canonical? (ofText "/docs/../l/a.txt") = some [ofText "docs", ofText "a.txt"] ∧
      strayLinks.settle? (ofText "/docs/../l/a.txt") = some [ofText "docs", ofText "a.txt"] := by
  have hstray : strayLinks.settle? (ofText "/missing/../l/../loop/./gone") =
      some [ofText "loop", ofText "gone"] := by
    decide +kernel
  have hcanonical : strayLinks.canonical? (ofText "/docs/../l/a.txt") =
      some [ofText "docs", ofText "a.txt"] := by
    decide +kernel
  have habsolute : Path.isAbsolute (ofText "/missing/../l/../loop/./gone") = true := by decide
  have hdirect : Path.isAbsolute (ofText "/docs/../l/a.txt") = true := by decide
  have hagainPath : Path.ofLocation [ofText "loop", ofText "gone"] = ofText "/loop/gone" := by decide
  obtain ⟨kept, hkept, -, -, -, hagain⟩ := exists_settle? strayLinks habsolute
  obtain ⟨found, hfound, hsame, -⟩ := exists_settle? strayLinks hdirect
  obtain rfl : kept = [ofText "loop", ofText "gone"] := Option.some.inj (hkept.symm.trans hstray)
  obtain rfl := hsame _ hcanonical
  rw [hagainPath] at hagain
  exact ⟨habsolute, hstray, hagain, hcanonical, hfound⟩

end FileTree

end MetadataSearch
