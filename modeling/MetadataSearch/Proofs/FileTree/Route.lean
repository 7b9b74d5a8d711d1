import Mathlib.Data.List.Induction
import MetadataSearch.FileTree.Resolution

/-!
# Routes through a file tree

A route is what `FileTree.follow` walks through, as a relation: steps that lead from one location to
another past at most so many links. With it the walk can be cut and joined anywhere, which the
function hides in its recursion on the number of links.

**Theorem (`follow_eq_some_iff`).** The walk arrives at a location iff a route leads there.

- `Route.append` joins two routes and `Route.split` cuts one: where it passes the cut, the links are
  shared out between both parts.
- A location is `Direct` if its own names are a route to it without any link. Every route from a
  direct location ends at one (`Direct.of_route`).
-/

namespace MetadataSearch

/-! ## Nodes below nodes -/

theorem Node.at?_append (node : Node) (outer inner : Location) :
    node.at? (outer ++ inner) = (node.at? outer).bind fun child => child.at? inner := by
  induction outer generalizing node with
  | nil => rfl
  | cons name outer ih =>
    rw [List.cons_append, Node.at?, Node.at?, Option.bind_assoc]
    congr 1
    funext child
    exact ih child

namespace FileTree

open MetadataSearch.Path (Step)

variable {t : FileTree} {inReach : Location → Bool}

theorem at?_child {here : Location} {info : DirectoryInfo} {entries : List (FileName × Node)}
    {name : FileName} {node : Node} (hdir : t.at? here = some (.directory info entries))
    (hfind : Fields.find? name entries = some node) : t.at? (here ++ [name]) = some node := by
  rw [at?] at hdir ⊢
  rw [Node.at?_append, hdir, Option.bind_some, Node.at?, Node.entries, hfind]
  rfl

/-! ## Routes -/

/-- Steps lead from a location to another one, past at most so many links and down only to locations
in reach. -/
inductive Route (t : FileTree) (inReach : Location → Bool) :
    (links : Nat) → Location → List Step → Location → Prop
  | nil {links : Nat} {here : Location} : Route t inReach links here [] here
  | stay {links : Nat} {here there : Location} {rest : List Step} {info : DirectoryInfo}
      {entries : List (FileName × Node)} (hdir : t.at? here = some (.directory info entries))
      (hrest : Route t inReach links here rest there) :
      Route t inReach links here (.stay :: rest) there
  | up {links : Nat} {here there : Location} {rest : List Step} {info : DirectoryInfo}
      {entries : List (FileName × Node)} (hdir : t.at? here = some (.directory info entries))
      (hrest : Route t inReach links here.dropLast rest there) :
      Route t inReach links here (.up :: rest) there
  | down {links : Nat} {here there : Location} {rest : List Step} {info : DirectoryInfo}
      {entries : List (FileName × Node)} {name : FileName} {node : Node}
      (hdir : t.at? here = some (.directory info entries))
      (hreach : inReach (here ++ [name]) = true) (hfind : Fields.find? name entries = some node)
      (hnode : ∀ target, node ≠ .link target)
      (hrest : Route t inReach links (here ++ [name]) rest there) :
      Route t inReach links here (.down name :: rest) there
  | link {links : Nat} {here there : Location} {rest : List Step} {info : DirectoryInfo}
      {entries : List (FileName × Node)} {name : FileName} {target : Path}
      (hdir : t.at? here = some (.directory info entries))
      (hreach : inReach (here ++ [name]) = true)
      (hfind : Fields.find? name entries = some (.link target))
      (hrest : Route t inReach links (if Path.isAbsolute target then [] else here)
        (Path.steps target ++ rest) there) :
      Route t inReach (links + 1) here (.down name :: rest) there

/-! ## The walk -/

/-- What the walk arrives at is reached by a route, unless it is a link that the walk kept. -/
theorem route_of_walk {links : Nat} {keepLast : Bool}
    {onLink : Location → List Step → Option Location}
    (honLink : ∀ here steps there, onLink here steps = some there →
      (∃ fewer, links = fewer + 1 ∧ Route t inReach fewer here steps there) ∨
        (keepLast = true ∧ ∃ target, t.at? there = some (.link target)))
    {here : Location} {steps : List Step} {there : Location}
    (h : t.walk inReach keepLast onLink here steps = some there) :
    Route t inReach links here steps there ∨
      (keepLast = true ∧ ∃ target, t.at? there = some (.link target)) := by
  induction steps generalizing here with
  | nil =>
    obtain rfl := Option.some.inj h
    exact .inl .nil
  | cons step rest ih =>
    rw [walk] at h
    split at h
    case h_2 => cases h
    case h_1 info entries hdir =>
      cases step with
      | stay => exact (ih h).imp_left (.stay hdir)
      | up => exact (ih h).imp_left (.up hdir)
      | down name =>
        by_cases hreach : inReach (here ++ [name]) = true
        · simp only [hreach, Bool.not_true, Bool.false_eq_true, if_false] at h
          split at h
          case h_1 => cases h
          case h_2 target hfind =>
            split at h
            case isTrue hkeep =>
              obtain rfl := Option.some.inj h
              rw [Bool.and_eq_true] at hkeep
              exact .inr ⟨hkeep.1, target, at?_child hdir hfind⟩
            case isFalse =>
              refine (honLink _ _ _ h).imp_left ?_
              rintro ⟨fewer, rfl, hroute⟩
              exact .link hdir hreach hfind hroute
          case h_3 node hlink hfind =>
            refine (ih h).imp_left (.down hdir hreach hfind fun target heq => ?_)
            exact hlink target heq
        · rw [Bool.not_eq_true] at hreach
          simp only [hreach, Bool.not_false, if_true] at h
          cases h

theorem route_of_follow {links : Nat} {keepLast : Bool} {here : Location} {steps : List Step}
    {there : Location} (h : t.follow inReach keepLast links here steps = some there) :
    Route t inReach links here steps there ∨
      (keepLast = true ∧ ∃ target, t.at? there = some (.link target)) := by
  induction links generalizing here steps there with
  | zero => exact route_of_walk (fun _ _ _ hnone => by cases hnone) h
  | succ links ih =>
    refine route_of_walk (fun _ _ _ hmore => ?_) h
    exact (ih hmore).imp_left fun hroute => ⟨links, rfl, hroute⟩

theorem follow_of_route {links : Nat} {here : Location} {steps : List Step} {there : Location}
    (h : Route t inReach links here steps there) :
    t.follow inReach false links here steps = some there := by
  induction h with
  | @nil links _ => cases links <;> rfl
  | @stay links _ _ _ _ _ hdir _ ih =>
    cases links <;> (rw [follow, walk, hdir]; exact ih)
  | @up links _ _ _ _ _ hdir _ ih =>
    cases links <;> (rw [follow, walk, hdir]; exact ih)
  | @down links here _ _ _ _ name node hdir hreach hfind hnode _ ih =>
    cases node with
    | link target => exact absurd rfl (hnode target)
    | _ => cases links <;> (simp only [follow, walk, hdir, hreach, hfind]; exact ih)
  | @link links here _ _ _ _ name target hdir hreach hfind _ ih =>
    simp only [follow, walk, hdir, hreach, hfind]
    exact ih

/-- **The walk follows the routes.** -/
theorem follow_eq_some_iff {links : Nat} {here : Location} {steps : List Step}
    {there : Location} :
    t.follow inReach false links here steps = some there ↔
      Route t inReach links here steps there := by
  refine ⟨fun h => ?_, follow_of_route⟩
  rcases route_of_follow h with hroute | ⟨hkeep, -⟩
  · exact hroute
  · cases hkeep

/-- The steps of an absolute path lead to its canonical location. -/
theorem route_of_canonical? {path : Path} {location : Location}
    (habs : Path.isAbsolute path = true) (h : t.canonical? path = some location) :
    Route t underOwnPath linkLimit [] (Path.steps path) location := by
  rw [canonical?, start, if_pos habs] at h
  split at h
  case isTrue => cases h
  case isFalse => exact follow_eq_some_iff.1 h

/-! ## Joining and cutting -/

namespace Route

theorem mono_links {links more : Nat} {here there : Location} {steps : List Step}
    (h : Route t inReach links here steps there) (hle : links ≤ more) :
    Route t inReach more here steps there := by
  induction h generalizing more with
  | nil => exact .nil
  | stay hdir _ ih => exact .stay hdir (ih hle)
  | up hdir _ ih => exact .up hdir (ih hle)
  | down hdir hreach hfind hnode _ ih => exact .down hdir hreach hfind hnode (ih hle)
  | @link links _ _ _ _ _ _ _ hdir hreach hfind _ ih =>
    obtain ⟨more, rfl⟩ : ∃ n, more = n + 1 := ⟨more - 1, by omega⟩
    exact .link hdir hreach hfind (ih (by omega))

theorem mono_reach {wider : Location → Bool} {links : Nat} {here there : Location}
    {steps : List Step} (h : Route t inReach links here steps there)
    (hwider : ∀ location, inReach location = true → wider location = true) :
    Route t wider links here steps there := by
  induction h with
  | nil => exact .nil
  | stay hdir _ ih => exact .stay hdir ih
  | up hdir _ ih => exact .up hdir ih
  | down hdir hreach hfind hnode _ ih => exact .down hdir (hwider _ hreach) hfind hnode ih
  | link hdir hreach hfind _ ih => exact .link hdir (hwider _ hreach) hfind ih

theorem append {i j : Nat} {here mid there : Location} {front back : List Step}
    (hfront : Route t inReach i here front mid) (hback : Route t inReach j mid back there) :
    Route t inReach (i + j) here (front ++ back) there := by
  induction hfront with
  | nil => exact hback.mono_links (Nat.le_add_left _ _)
  | stay hdir _ ih => exact .stay hdir (ih hback)
  | up hdir _ ih => exact .up hdir (ih hback)
  | down hdir hreach hfind hnode _ ih => exact .down hdir hreach hfind hnode (ih hback)
  | @link links _ _ _ _ _ _ _ hdir hreach hfind _ ih =>
    rw [Nat.add_right_comm, List.cons_append]
    refine .link hdir hreach hfind ?_
    rw [← List.append_assoc]
    exact ih hback

theorem split {links : Nat} {here there : Location} {front back : List Step}
    (h : Route t inReach links here (front ++ back) there) :
    ∃ i j mid, i + j = links ∧ Route t inReach i here front mid ∧
      Route t inReach j mid back there := by
  generalize hsteps : front ++ back = steps at h
  induction h generalizing front with
  | @nil links here =>
    obtain ⟨rfl, rfl⟩ := List.append_eq_nil_iff.1 hsteps
    exact ⟨0, links, here, Nat.zero_add _, .nil, .nil⟩
  | @stay links here there rest info entries hdir hrest ih =>
    rcases List.append_eq_cons_iff.1 hsteps with ⟨rfl, rfl⟩ | ⟨front, rfl, rfl⟩
    · exact ⟨0, links, here, Nat.zero_add _, .nil, .stay hdir hrest⟩
    · obtain ⟨i, j, mid, hsum, hfront, hback⟩ := ih rfl
      exact ⟨i, j, mid, hsum, .stay hdir hfront, hback⟩
  | @up links here there rest info entries hdir hrest ih =>
    rcases List.append_eq_cons_iff.1 hsteps with ⟨rfl, rfl⟩ | ⟨front, rfl, rfl⟩
    · exact ⟨0, links, here, Nat.zero_add _, .nil, .up hdir hrest⟩
    · obtain ⟨i, j, mid, hsum, hfront, hback⟩ := ih rfl
      exact ⟨i, j, mid, hsum, .up hdir hfront, hback⟩
  | @down links here there rest info entries name node hdir hreach hfind hnode hrest ih =>
    rcases List.append_eq_cons_iff.1 hsteps with ⟨rfl, rfl⟩ | ⟨front, rfl, rfl⟩
    · exact ⟨0, links, here, Nat.zero_add _, .nil, .down hdir hreach hfind hnode hrest⟩
    · obtain ⟨i, j, mid, hsum, hfront, hback⟩ := ih rfl
      exact ⟨i, j, mid, hsum, .down hdir hreach hfind hnode hfront, hback⟩
  | @link links here there rest info entries name target hdir hreach hfind hrest ih =>
    rcases List.append_eq_cons_iff.1 hsteps with ⟨rfl, rfl⟩ | ⟨front, rfl, rfl⟩
    · exact ⟨0, links + 1, here, Nat.zero_add _, .nil, .link hdir hreach hfind hrest⟩
    · obtain ⟨i, j, mid, hsum, hfront, hback⟩ := ih (List.append_assoc _ _ _)
      exact ⟨i + 1, j, mid, by omega, .link hdir hreach hfind hfront, hback⟩

/-- Where steps lead there is one end only. -/
theorem unique {i j : Nat} {here there other : Location} {steps : List Step}
    (h : Route t inReach i here steps there) (hother : Route t inReach j here steps other) :
    there = other := by
  have hthere := follow_of_route (h.mono_links (Nat.le_max_left i j))
  have hsame := follow_of_route (hother.mono_links (Nat.le_max_right i j))
  exact Option.some.inj (hthere.symm.trans hsame)

/-- A last step that stays can be left out. -/
theorem of_append_stay {links : Nat} {here there : Location} {front : List Step}
    (h : Route t inReach links here (front ++ [.stay]) there) :
    Route t inReach links here front there := by
  obtain ⟨i, j, mid, hsum, hfront, hstay⟩ := h.split
  cases hstay with
  | stay _ hnil =>
    cases hnil
    exact hfront.mono_links (by omega)

end Route

/-! ## Direct locations -/

/-- The names of the location are a route to it that passes no link. -/
def Direct (t : FileTree) (inReach : Location → Bool) (here : Location) : Prop :=
  Route t inReach 0 [] (here.map .down) here

theorem direct_nil : t.Direct inReach [] := .nil

theorem Direct.child {here : Location} {info : DirectoryInfo} {entries : List (FileName × Node)}
    {name : FileName} {node : Node} (h : t.Direct inReach here)
    (hdir : t.at? here = some (.directory info entries))
    (hreach : inReach (here ++ [name]) = true) (hfind : Fields.find? name entries = some node)
    (hnode : ∀ target, node ≠ .link target) : t.Direct inReach (here ++ [name]) := by
  have hlast : Route t inReach 0 here [.down name] (here ++ [name]) :=
    .down hdir hreach hfind hnode .nil
  rw [Direct, List.map_append]
  exact h.append hlast

/-- Below a direct location a name was found in the directory that the others lead to, which is direct. -/
theorem Direct.exists_entry {outer : Location} {name : FileName}
    (h : t.Direct inReach (outer ++ [name])) :
    t.Direct inReach outer ∧ ∃ info entries node,
      t.at? outer = some (.directory info entries) ∧ Fields.find? name entries = some node := by
  rw [Direct, List.map_append] at h
  obtain ⟨i, j, mid, hsum, houter, hlast⟩ := h.split
  obtain ⟨rfl, rfl⟩ : i = 0 ∧ j = 0 := by omega
  cases hlast with
  | down hdir hreach hfind hnode hrest =>
    generalize hthere : mid ++ [name] = there at hrest
    cases hrest
    obtain rfl : mid = outer := List.append_cancel_right hthere
    exact ⟨houter, _, _, _, hdir, hfind⟩

theorem Direct.dropLast {here : Location} (h : t.Direct inReach here) :
    t.Direct inReach here.dropLast := by
  rcases List.eq_nil_or_concat here with rfl | ⟨outer, name, rfl⟩
  · exact .nil
  · rw [List.concat_eq_append] at h
    rw [List.concat_eq_append, List.dropLast_concat]
    exact h.exists_entry.1

/-- All that is on the way to a direct location is direct. -/
theorem Direct.of_prefix {outer here : Location} (h : t.Direct inReach here) (hbefore : outer <+: here) :
    t.Direct inReach outer := by
  obtain ⟨rest, rfl⟩ := hbefore
  induction rest using List.reverseRecOn with
  | nil => rwa [List.append_nil] at h
  | append_singleton rest name ih =>
    rw [← List.append_assoc] at h
    exact ih h.exists_entry.1

theorem Direct.exists_at? {here : Location} (h : t.Direct inReach here) :
    ∃ node, t.at? here = some node := by
  rcases List.eq_nil_or_concat here with rfl | ⟨outer, name, rfl⟩
  · exact ⟨t.root, rfl⟩
  · rw [List.concat_eq_append] at h ⊢
    obtain ⟨-, _, _, node, hdir, hfind⟩ := h.exists_entry
    exact ⟨node, at?_child hdir hfind⟩

/-- Routes lead from direct locations to direct ones. -/
theorem Direct.of_route {links : Nat} {here there : Location} {steps : List Step}
    (h : t.Direct inReach here) (hroute : Route t inReach links here steps there) :
    t.Direct inReach there := by
  induction hroute with
  | nil => exact h
  | stay _ _ ih => exact ih h
  | up _ _ ih => exact ih h.dropLast
  | down hdir hreach hfind hnode _ ih => exact ih (h.child hdir hreach hfind hnode)
  | @link _ _ _ _ _ _ _ target _ _ _ _ ih =>
    refine ih ?_
    by_cases habs : Path.isAbsolute target = true
    · rw [if_pos habs]
      exact .nil
    · rw [if_neg habs]
      exact h

end FileTree

end MetadataSearch
