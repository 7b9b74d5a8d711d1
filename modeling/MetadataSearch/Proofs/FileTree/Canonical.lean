import MetadataSearch.FileTree.Containment
import MetadataSearch.Proofs.FileTree.Route
import MetadataSearch.Proofs.Outcome

/-!
# Where canonical paths settle

`FileTree.settle?` goes up by taking names away and keeps a name of which it finds no location, so it
may well arrive elsewhere than the file system does.

**Theorem (`settle?_of_canonical?`).** A path that has a canonical location settles there.

The invariant is that what was reached so far is `Direct`: its own names are a route to it without
links. Then going up takes one directory away on both sides, and one step down, looked up from the
root, is the same route followed by that step. At a link the route is cut behind the target
(`Route.split`): the first part ends where the step settles, and the second part goes on from there.

`FileTree.Fenced` is being at or below the place where a root settles. The check of a path against
the roots is about the place where the path settles (`withinAny_eq_ok_iff`), hence about its location if
that is canonical (`fenced_of_withinAny`).
-/

namespace MetadataSearch.FileTree

open MetadataSearch.Path (Step)

variable {t : FileTree}

/-! ## Single steps -/

/-- A direct location is found under its own names, and a route that goes on from there leads on. -/
theorem Direct.locateByPath_append {here there : Location} {links : Nat} {steps : List Step}
    (h : t.Direct underOwnPath here) (hroute : Route t underOwnPath links here steps there)
    (hlinks : links ≤ linkLimit) :
    t.locateByPath [] (here.map .down ++ steps) = some there := by
  refine follow_of_route ((Route.append h hroute).mono_links ?_)
  omega

theorem settleStep_down {here there : Location} {links : Nat} {name : FileName}
    (h : t.Direct underOwnPath here)
    (hroute : Route t underOwnPath links here [.down name] there) (hlinks : links ≤ linkLimit) :
    t.settleStep here (.down name) = there := by
  have hfound := h.locateByPath_append hroute hlinks
  rw [settleStep, List.map_append, List.map_singleton, hfound]
  rfl

/-- From a direct location, steps settle where a route leads. -/
theorem foldl_settleStep {links : Nat} {here there : Location} {steps : List Step}
    (h : t.Direct underOwnPath here) (hroute : Route t underOwnPath links here steps there)
    (hlinks : links ≤ linkLimit) : steps.foldl t.settleStep here = there := by
  induction steps generalizing here links with
  | nil =>
    cases hroute
    rfl
  | cons step rest ih =>
    rw [List.foldl_cons]
    cases hroute with
    | stay _ hrest => exact ih h hrest hlinks
    | up _ hrest => exact ih h.dropLast hrest hlinks
    | down hdir hreach hfind hnode hrest =>
      rw [settleStep_down h (.down hdir hreach hfind hnode .nil) hlinks]
      exact ih (h.child hdir hreach hfind hnode) hrest hlinks
    | @link fewer _ _ _ _ _ name target hdir hreach hfind hrest =>
      obtain ⟨i, j, mid, hsum, htarget, hrest⟩ := hrest.split
      have hstep : Route t underOwnPath (i + 1) here [.down name] mid := by
        refine .link hdir hreach hfind ?_
        rw [List.append_nil]
        exact htarget
      rw [settleStep_down h hstep (by omega)]
      exact ih (h.of_route hstep) hrest (by omega)

/-! ## Paths -/

/-- **A path settles at its canonical location.** -/
theorem settle?_of_canonical? {path : Path} {location : Location}
    (habs : Path.isAbsolute path = true) (h : t.canonical? path = some location) :
    t.settle? path = some location := by
  have hroute := route_of_canonical? habs h
  rw [settle?, if_pos habs, foldl_settleStep direct_nil hroute (Nat.le_refl _)]

/-- A canonical location is the location. -/
theorem location?_of_canonical? {path : Path} {location : Location}
    (h : t.canonical? path = some location) : t.location? path = some location := by
  rw [canonical?] at h
  rw [location?]
  split at h
  case isTrue => cases h
  case isFalse hne =>
    rw [if_neg hne]
    exact follow_of_route ((follow_eq_some_iff.1 h).mono_reach fun _ _ => rfl)

/-! ## The fence -/

/-- At or below the place where a root settles. -/
def Fenced (t : FileTree) (roots : List Path) (location : Location) : Prop :=
  ∃ root ∈ roots, ∃ fence, t.settle? root = some fence ∧ fence <+: location

theorem settled_eq_ok {path : Path} {location : Location} :
    t.settled path = .ok location ↔ t.settle? path = some location := by
  rw [settled]
  split <;> simp_all

theorem prefix_of_within {path scope : Path} {location : Location}
    (h : t.within path scope = .ok location) :
    t.settle? path = some location ∧ ∃ fence, t.settle? scope = some fence ∧ fence <+: location := by
  rw [within] at h
  obtain ⟨reached, hpath, h⟩ := Outcome.bind_eq_ok.1 h
  obtain ⟨fence, hscope, h⟩ := Outcome.bind_eq_ok.1 h
  split at h
  case isFalse => cases h
  case isTrue hprefix =>
    obtain rfl := Except.ok.inj h
    exact ⟨settled_eq_ok.1 hpath, fence, settled_eq_ok.1 hscope,
      List.isPrefixOf_iff_prefix.1 hprefix⟩

theorem isAbsolute_of_settle? {path : Path} {location : Location}
    (h : t.settle? path = some location) : Path.isAbsolute path = true := by
  rw [settle?] at h
  split at h
  case isTrue habs => exact habs
  case isFalse => cases h

theorem within_eq_ok {path scope : Path} {location fence : Location}
    (hpath : t.settle? path = some location) (hscope : t.settle? scope = some fence)
    (hbelow : fence <+: location) : t.within path scope = .ok location := by
  rw [within, settled_eq_ok.2 hpath, settled_eq_ok.2 hscope]
  show (if fence.isPrefixOf location then _ else _) = _
  rw [if_pos (List.isPrefixOf_iff_prefix.2 hbelow)]
  rfl

/-- **The check against roots.** It accepts the paths that settle in the fence. -/
theorem withinAny_eq_ok_iff {roots : List Path} {path : Path} {location : Location}
    (hroots : roots ≠ []) :
    t.withinAny roots path = .ok location ↔
      t.settle? path = some location ∧ t.Fenced roots location := by
  rw [withinAny, if_neg (by rwa [List.isEmpty_iff])]
  -- A root that accepts the path gives the place where it settles, so the first one is as good as any.
  have hfirst : ∀ reached,
      roots.findSome? (fun root => (t.within path root).toOption) = some reached →
        t.settle? path = some reached ∧ t.Fenced roots reached := by
    intro reached hfound
    obtain ⟨root, hmem, hsome⟩ := List.exists_of_findSome?_eq_some hfound
    cases hwithin : t.within path root with
    | error fault =>
      rw [hwithin] at hsome
      cases hsome
    | ok other =>
      rw [hwithin] at hsome
      obtain rfl := Option.some.inj hsome
      obtain ⟨hpath, fence, hroot, hprefix⟩ := prefix_of_within hwithin
      exact ⟨hpath, root, hmem, fence, hroot, hprefix⟩
  constructor
  · intro h
    split at h
    case h_2 => cases h
    case h_1 reached hfound =>
      obtain rfl := Except.ok.inj h
      exact hfirst reached hfound
  · rintro ⟨hsettle, root, hmem, fence, hroot, hprefix⟩
    split
    case h_2 hnone =>
      have hrefused := List.findSome?_eq_none_iff.1 hnone root hmem
      rw [within_eq_ok hsettle hroot hprefix] at hrefused
      cases hrefused
    case h_1 reached hfound =>
      rw [Option.some.inj ((hfirst reached hfound).1.symm.trans hsettle)]

theorem fenced_append {roots : List Path} {location : Location} (names : List FileName)
    (h : t.Fenced roots location) : t.Fenced roots (location ++ names) := by
  obtain ⟨root, hroot, fence, hfence, hprefix⟩ := h
  exact ⟨root, hroot, fence, hfence, hprefix.trans (List.prefix_append _ _)⟩

/-- What is below an accepted scope is accepted. -/
theorem withinAny_of_below {roots : List Path} {scope path : Path}
    {settled location : Location} {names : List FileName} (hscope : t.withinAny roots scope = .ok settled)
    (hlocation : t.settle? scope = some location) (hpath : t.settle? path = some (location ++ names)) :
    t.withinAny roots path = .ok (location ++ names) := by
  by_cases hroots : roots = []
  · rw [hroots]
    exact settled_eq_ok.2 hpath
  · obtain ⟨hsettled, hfence⟩ := (withinAny_eq_ok_iff hroots).1 hscope
    rw [hlocation, Option.some_inj] at hsettled
    rw [← hsettled] at hfence
    exact (withinAny_eq_ok_iff hroots).2 ⟨hpath, fenced_append names hfence⟩

/-- The location of an accepted path is in the fence, if it is canonical. -/
theorem fenced_of_withinAny {roots : List Path} {path : Path} {settled location : Location}
    (hroots : roots ≠ []) (h : t.withinAny roots path = .ok settled)
    (hcanonical : (t.location? path).isSome → (t.canonical? path).isSome)
    (hlocation : t.location? path = some location) : t.Fenced roots location := by
  obtain ⟨hsettle, hfence⟩ := (withinAny_eq_ok_iff hroots).1 h
  obtain ⟨reached, hreached⟩ := Option.isSome_iff_exists.1 (hcanonical (hlocation ▸ rfl))
  have hsame : reached = location :=
    Option.some.inj ((location?_of_canonical? hreached).symm.trans hlocation)
  have hsettled : settled = reached :=
    Option.some.inj (hsettle.symm.trans (settle?_of_canonical? (isAbsolute_of_settle? hsettle) hreached))
  rw [← hsame, ← hsettled]
  exact hfence

end MetadataSearch.FileTree
