import Mathlib.Order.Bounds.Defs
import MetadataSearch.Search

/-!
# Stopping early

**Theorem (`run_some`).** A search with a cap gives the first results of the search without one, and the
same error if that one fails.

**Theorem (`readFor_collect`).** The cap also decides how many handles are read: as few as hold that many
results, or all handles if they hold fewer.

Both are by induction on the handles, for every cap: a handle without a result moves on with the same
cap, one with a result with the cap less one. So the handles that are passed over never count.
-/

namespace MetadataSearch.Search

/-- The results that handles hold. -/
def resultsIn (handles : List (Option Item)) : List SearchResult :=
  handles.filterMap fun handle => handle.bind SearchResult.ofItem?

/-- The number of handles to read for so many results: the least number of first handles that hold
them, or all handles if these hold fewer. -/
def ReadFor (cap : Nat) (handles : List (Option Item)) (read : Nat) : Prop :=
  if cap ≤ (resultsIn handles).length then
    IsLeast { n | cap ≤ (resultsIn (handles.take n)).length } read
  else read = handles.length

variable {handle : Option Item} {handles : List (Option Item)} {result : SearchResult}

theorem resultsIn_cons_of_some (h : handle.bind SearchResult.ofItem? = some result) :
    resultsIn (handle :: handles) = result :: resultsIn handles :=
  List.filterMap_cons_some h

theorem resultsIn_cons_of_none (h : handle.bind SearchResult.ofItem? = none) :
    resultsIn (handle :: handles) = resultsIn handles :=
  List.filterMap_cons_none h

/-! ## One handle -/

theorem collect_zero (handles : List (Option Item)) : collect (some 0) handles = ([], 0) := by
  rw [collect]

theorem collect_nil (cap : Option Nat) : collect cap [] = ([], 0) := by
  cases cap with
  | none => rfl
  | some cap => cases cap <;> rfl

theorem collect_cons_of_some {cap : Option Nat} (hcap : cap ≠ some 0)
    (h : handle.bind SearchResult.ofItem? = some result) :
    collect cap (handle :: handles) =
      (result :: (collect (cap.map (· - 1)) handles).1,
        (collect (cap.map (· - 1)) handles).2 + 1) := by
  rw [collect]
  · rw [h]
  · exact hcap

theorem collect_cons_of_none {cap : Option Nat} (hcap : cap ≠ some 0)
    (h : handle.bind SearchResult.ofItem? = none) :
    collect cap (handle :: handles) =
      ((collect cap handles).1, (collect cap handles).2 + 1) := by
  rw [collect]
  · rw [h]
  · exact hcap

/-! ## All handles -/

/-- Without a cap all results are collected. -/
theorem collect_none (handles : List (Option Item)) :
    collect none handles = (resultsIn handles, handles.length) := by
  induction handles with
  | nil => rfl
  | cons handle handles ih =>
    have hcap : (none : Option Nat) ≠ some 0 := by simp
    cases h : handle.bind SearchResult.ofItem? with
    | none =>
      rw [collect_cons_of_none hcap h, ih, resultsIn_cons_of_none h]
      rfl
    | some result =>
      rw [collect_cons_of_some hcap h, Option.map_none, ih,
        resultsIn_cons_of_some h]
      rfl

/-- With a cap the first results are collected. -/
theorem collect_some (cap : Nat) (handles : List (Option Item)) :
    (collect (some cap) handles).1 = (resultsIn handles).take cap := by
  induction handles generalizing cap with
  | nil => rw [collect_nil, resultsIn, List.filterMap_nil, List.take_nil]
  | cons handle handles ih =>
    cases cap with
    | zero => rw [collect_zero, List.take_zero]
    | succ cap =>
      have hcap : some (cap + 1) ≠ some 0 := by simp
      cases h : handle.bind SearchResult.ofItem? with
      | none => rw [collect_cons_of_none hcap h, resultsIn_cons_of_none h, ih]
      | some result =>
        rw [collect_cons_of_some hcap h, resultsIn_cons_of_some h, List.take_succ_cons]
        exact congrArg (result :: ·) (ih cap)

/-- What is collected is the first part of all results. -/
theorem prefix_of_collect (cap : Option Nat) (handles : List (Option Item)) :
    (collect cap handles).1 <+: resultsIn handles := by
  cases cap with
  | none =>
    have hall : (collect none handles).1 = resultsIn handles := congrArg Prod.fst (collect_none handles)
    exact hall.symm ▸ List.prefix_rfl
  | some cap =>
    rw [collect_some]
    exact List.take_prefix cap _

/-- What is least is found one step later if the first step does not have it. -/
theorem isLeast_succ {S T : Set Nat} {n : Nat} (hzero : 0 ∉ S) (hsucc : ∀ m, m + 1 ∈ S ↔ m ∈ T)
    (h : IsLeast T n) : IsLeast S (n + 1) := by
  refine ⟨(hsucc n).2 h.1, fun m hm => ?_⟩
  cases m with
  | zero => exact absurd hm hzero
  | succ m => exact Nat.succ_le_succ (h.2 ((hsucc m).1 hm))

/-- One handle more is read for `cap` results than is read for `rest` results of the handles after it,
if the results that they hold are as many short. -/
theorem readFor_cons {cap rest read : Nat} (hcap : 0 < cap)
    (hresults : ∀ others : List (Option Item),
      cap ≤ (resultsIn (handle :: others)).length ↔ rest ≤ (resultsIn others).length)
    (h : ReadFor rest handles read) : ReadFor cap (handle :: handles) (read + 1) := by
  rw [ReadFor] at h ⊢
  by_cases hrest : rest ≤ (resultsIn handles).length
  · rw [if_pos hrest] at h
    rw [if_pos ((hresults handles).2 hrest)]
    refine isLeast_succ ?_ (fun n => ?_) h
    · exact Nat.not_le.2 hcap
    · exact hresults (handles.take n)
  · rw [if_neg hrest] at h
    rw [if_neg fun hall => hrest ((hresults handles).1 hall), h, List.length_cons]

/-- **No handle too many is read,** and none too few. -/
theorem readFor_collect (cap : Nat) (handles : List (Option Item)) :
    ReadFor cap handles (collect (some cap) handles).2 := by
  induction handles generalizing cap with
  | nil =>
    rw [collect_nil, ReadFor]
    split
    case isTrue hcap => exact ⟨hcap, fun n _ => Nat.zero_le n⟩
    case isFalse => rfl
  | cons handle handles ih =>
    cases cap with
    | zero =>
      rw [collect_zero, ReadFor, if_pos (Nat.zero_le _)]
      exact ⟨Nat.zero_le _, fun n _ => Nat.zero_le n⟩
    | succ cap =>
      have hcap : some (cap + 1) ≠ some 0 := by simp
      cases h : handle.bind SearchResult.ofItem? with
      | none =>
        rw [collect_cons_of_none hcap h]
        refine readFor_cons (Nat.succ_pos cap) (fun others => ?_) (ih (cap + 1))
        rw [resultsIn_cons_of_none h]
      | some result =>
        rw [collect_cons_of_some hcap h]
        refine readFor_cons (Nat.succ_pos cap) (fun others => ?_) (ih cap)
        rw [resultsIn_cons_of_some h, List.length_cons, Nat.succ_le_succ_iff]

/-! ## Runs -/

section Runs

variable {engine : Engine} {query : String} {scopes : List Path} {prepared : PreparedQuery}

/-- A search whose query is not understood. -/
theorem run_of_prepare_error {e : EngineError} (cap : Option Nat) (hscopes : scopes ≠ [])
    (hprepare : engine.prepare query = .error e) :
    run engine query scopes cap = (.error (.failed e), [.prepare query]) := by
  rw [run, if_neg (by rwa [List.isEmpty_iff]), hprepare]

/-- A search whose query is prepared and fails in the scopes. -/
theorem run_of_execute_error {e : EngineError} (cap : Option Nat) (hscopes : scopes ≠ [])
    (hprepare : engine.prepare query = .ok prepared) (hexecute : prepared scopes = .error e) :
    run engine query scopes cap = (.error (.failed e), [.prepare query, .setScopes scopes]) := by
  rw [run, if_neg (by rwa [List.isEmpty_iff]), hprepare]
  simp only [hexecute]

/-- A search whose query is prepared and has handles. -/
theorem run_of_handles (cap : Option Nat) (hscopes : scopes ≠ [])
    (hprepare : engine.prepare query = .ok prepared) (hhandles : prepared scopes = .ok handles) :
    run engine query scopes cap = (.ok (collect cap handles).1,
      .prepare query :: .setScopes scopes :: (List.range (collect cap handles).2).map .read) := by
  rw [run, if_neg (by rwa [List.isEmpty_iff]), hprepare]
  simp only [hhandles]

/-- The calls of a search: its query is prepared, then its scopes are set, and then handles are read one
after the other. -/
theorem calls_of_run (engine : Engine) (query : String) (cap : Option Nat) (hscopes : scopes ≠ []) :
    (∃ e, engine.prepare query = .error e ∧
      (run engine query scopes cap).2 = [.prepare query]) ∨
    ∃ prepared read, engine.prepare query = .ok prepared ∧
      (run engine query scopes cap).2 =
        .prepare query :: .setScopes scopes :: (List.range read).map .read := by
  cases hprepare : engine.prepare query with
  | error e => exact .inl ⟨e, rfl, by rw [run_of_prepare_error cap hscopes hprepare]⟩
  | ok prepared =>
    right
    cases hexecute : prepared scopes with
    | error e => exact ⟨prepared, 0, rfl, by rw [run_of_execute_error cap hscopes hprepare hexecute]; rfl⟩
    | ok handles => exact ⟨prepared, _, rfl, by rw [run_of_handles cap hscopes hprepare hexecute]⟩

end Runs

/-- **A cap gives the first results.** -/
theorem run_some (engine : Engine) (query : String) (scopes : List Path) (cap : Nat) :
    (run engine query scopes (some cap)).1 =
      (run engine query scopes none).1.map (·.take cap) := by
  by_cases hscopes : scopes = []
  · rw [hscopes]
    rfl
  · cases hprepare : engine.prepare query with
    | error e =>
      rw [run_of_prepare_error _ hscopes hprepare, run_of_prepare_error _ hscopes hprepare]
      rfl
    | ok prepared =>
      cases hexecute : prepared scopes with
      | error e =>
        rw [run_of_execute_error _ hscopes hprepare hexecute,
          run_of_execute_error _ hscopes hprepare hexecute]
        rfl
      | ok handles =>
        rw [run_of_handles _ hscopes hprepare hexecute, run_of_handles _ hscopes hprepare hexecute,
          collect_some, collect_none]
        rfl

end MetadataSearch.Search
