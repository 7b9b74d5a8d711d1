import MetadataSearch.Proofs.FileTree.ShownFiles

/-!
# Visits

A search goes through its scopes one after another and visits the files of each. Overlapping scopes lead
to a file again, perhaps under another spelling of its path; only the first visit is kept
(`FileTree.visibleInAll_eq`).

**Theorem (`filter_firstOfEach`).** First visits commute with a selection as long as the first visit of a
file is selected if any visit of it is (`FileTree.FirstVisitsCount`). That is the exact condition
(`first_of_keys_filter_firstOfEach`): otherwise the selection before has a file that the selection
afterwards has not.

Within one scope no file is visited twice, and where spellings agree, every visit of a file finds the
same (`FileTree.firstVisitsCount_of_paths`).
-/

namespace MetadataSearch

/-! ## Repetitions -/

section Repetitions

variable {α β : Type} [BEq β] {key : α → β}

/-- The first item with each key. -/
def firstOfEach (key : α → β) (items : List α) : List α := items.eraseDupsBy fun a b => key a == key b

theorem firstOfEach_cons (a : α) (items : List α) :
    firstOfEach key (a :: items) = a :: firstOfEach key (items.filter fun b => !(key b == key a)) := by
  rw [firstOfEach, List.eraseDupsBy_cons]
  simp [firstOfEach]

/-- Behind an item only those with other keys matter. -/
theorem induction_of_keys (key : α → β) {motive : List α → Prop} (nil : motive [])
    (cons : ∀ a items, motive (items.filter fun b => !(key b == key a)) → motive (a :: items)) :
    (items : List α) → motive items
  | [] => nil
  | a :: items => cons a items (induction_of_keys key nil cons (items.filter fun b => !(key b == key a)))
termination_by items => items.length
decreasing_by exact Nat.lt_succ_of_le (List.length_filter_le _ _)

theorem firstOfEach_map_keys (items : List α) :
    firstOfEach Prod.fst (items.map fun a => (key a, a)) =
      (firstOfEach key items).map fun a => (key a, a) := by
  induction items using induction_of_keys key with
  | nil => rfl
  | cons a items ih =>
    rw [List.map_cons, firstOfEach_cons, firstOfEach_cons, List.map_cons, ← ih, List.filter_map]
    rfl

variable [LawfulBEq β]

theorem find?_of_other_key {a b : α} (h : key a ≠ key b) (items : List α) :
    (a :: items).find? (key · == key b) =
      (items.filter fun c => !(key c == key a)).find? (key · == key b) := by
  rw [List.find?_cons_of_neg (by simpa using h), List.find?_filter]
  congr 1
  funext c
  by_cases hc : key c = key b
  · simp [hc, Ne.symm h]
  · simp [hc]

/-- What stays are the items that are the first with their keys. -/
theorem mem_firstOfEach_iff {items : List α} {b : α} :
    b ∈ firstOfEach key items ↔ items.find? (key · == key b) = some b := by
  induction items using induction_of_keys key with
  | nil => simp [firstOfEach]
  | cons a items ih =>
    rw [firstOfEach_cons, List.mem_cons, ih]
    by_cases hkey : key a = key b
    · have hother : (items.filter fun c => !(key c == key a)).find? (key · == key b) ≠ some b := by
        intro hfind
        have hmem := (List.mem_filter.1 (List.mem_of_find?_eq_some hfind)).2
        simp [hkey] at hmem
      rw [List.find?_cons_of_pos (by simpa using hkey), Option.some_inj, eq_comm]
      exact or_iff_left hother
    · rw [find?_of_other_key hkey]
      refine or_iff_right ?_
      rintro rfl
      exact hkey rfl

/-- No key stands twice. -/
theorem nodup_keys_firstOfEach (items : List α) : ((firstOfEach key items).map key).Nodup := by
  induction items using induction_of_keys key with
  | nil => exact List.nodup_nil
  | cons a items ih =>
    rw [firstOfEach_cons, List.map_cons, List.nodup_cons]
    refine ⟨fun hkey => ?_, ih⟩
    obtain ⟨b, hb, hsame⟩ := List.mem_map.1 hkey
    have hmem := List.mem_of_find?_eq_some (mem_firstOfEach_iff.1 hb)
    simpa [hsame] using (List.mem_filter.1 hmem).2

theorem firstOfEach_eq_self {items : List α} (h : items.Pairwise fun a b => key a ≠ key b) :
    firstOfEach key items = items := by
  induction items with
  | nil => rfl
  | cons a items ih =>
    rw [List.pairwise_cons] at h
    have hall : (items.filter fun b => !(key b == key a)) = items :=
      List.filter_eq_self.2 fun b hb => by simp [Ne.symm (h.1 b hb)]
    rw [firstOfEach_cons, hall, ih h.2]

/-- A selection of items has first ones that are first of all, if no other item comes before them. -/
theorem filter_firstOfEach {p : α → Bool} {items : List α}
    (h : ∀ b ∈ items, p b = true → ∀ a, items.find? (key · == key b) = some a → p a = true) :
    (firstOfEach key items).filter p = firstOfEach key (items.filter p) := by
  induction items using induction_of_keys key with
  | nil => rfl
  | cons a items ih =>
    have hrest : (firstOfEach key (items.filter fun b => !(key b == key a))).filter p =
        firstOfEach key ((items.filter fun b => !(key b == key a)).filter p) := by
      refine ih fun b hb hpb first hfirst => ?_
      obtain ⟨hmem, hkey⟩ := List.mem_filter.1 hb
      have hother : key a ≠ key b := fun heq => by simp [heq] at hkey
      rw [← find?_of_other_key hother] at hfirst
      exact h b (List.mem_cons_of_mem _ hmem) hpb first hfirst
    rw [firstOfEach_cons]
    by_cases hpa : p a = true
    · have hcomm : (items.filter fun b => !(key b == key a)).filter p =
          (items.filter p).filter fun b => !(key b == key a) := by
        simp only [List.filter_filter, Bool.and_comm]
      rw [List.filter_cons_of_pos hpa, List.filter_cons_of_pos hpa, firstOfEach_cons, hrest, hcomm]
    · have hall : (items.filter fun b => !(key b == key a)).filter p = items.filter p := by
        rw [List.filter_filter]
        refine List.filter_congr fun b hb => ?_
        by_cases hpb : p b = true
        · have hkey : key b ≠ key a := fun heq => hpa
            (h b (List.mem_cons_of_mem _ hb) hpb a (List.find?_cons_of_pos (by simp [heq])))
          simp [hpb, hkey]
        · simp [hpb]
      rw [List.filter_cons_of_neg hpa, List.filter_cons_of_neg hpa, hrest, hall]

/-- Otherwise a key is lost. -/
theorem first_of_keys_filter_firstOfEach {p : α → Bool} {items : List α}
    (h : ((firstOfEach key items).filter p).map key = (firstOfEach key (items.filter p)).map key)
    {a b : α} (hb : b ∈ items) (hpb : p b = true) (ha : items.find? (key · == key b) = some a) :
    p a = true := by
  have hselected : ((items.filter p).find? (key · == key b)).isSome = true :=
    List.find?_isSome.2 ⟨b, List.mem_filter.2 ⟨hb, hpb⟩, beq_self_eq_true _⟩
  obtain ⟨c, hc⟩ := Option.isSome_iff_exists.1 hselected
  have hkeyc : key c = key b := by simpa using List.find?_some hc
  have hkept : key b ∈ (firstOfEach key (items.filter p)).map key :=
    List.mem_map.2 ⟨c, mem_firstOfEach_iff.2 (hkeyc ▸ hc), hkeyc⟩
  rw [← h] at hkept
  obtain ⟨first, hfirst, hkey⟩ := List.mem_map.1 hkept
  obtain ⟨hmem, hpfirst⟩ := List.mem_filter.1 hfirst
  rw [mem_firstOfEach_iff, hkey, ha] at hmem
  exact Option.some.inj hmem ▸ hpfirst

end Repetitions

/-! ## Scopes -/

/-- What the spellings of one path share. -/
def FoundFile.identity (file : FoundFile) : List FileName := Path.identity file.path

namespace FileTree

variable {t : FileTree} {scopes : List Path}

/-- The visits of files in scopes, with all repetitions. -/
def visits (t : FileTree) (scopes : List Path) : List FoundFile := scopes.flatMap t.visibleFiles

theorem visibleInAll_eq (t : FileTree) (scopes : List Path) :
    t.visibleInAll scopes = (firstOfEach FoundFile.identity (t.visits scopes)).filter
      fun file => !Path.isTooLong file.path := by
  have hkeys : firstOfEach Prod.fst ((t.visits scopes).map fun file => (file.identity, file)) =
      (firstOfEach FoundFile.identity (t.visits scopes)).map fun file => (file.identity, file) :=
    firstOfEach_map_keys (t.visits scopes)
  have hfiles : ((firstOfEach FoundFile.identity (t.visits scopes)).map
      fun file => (file.identity, file)).map Prod.snd =
        firstOfEach FoundFile.identity (t.visits scopes) := by
    rw [List.map_map]
    exact List.map_id _
  rw [visibleInAll]
  show ((firstOfEach Prod.fst ((t.visits scopes).map fun file => (file.identity, file))).map
    Prod.snd).filter _ = _
  rw [hkeys, hfiles]

theorem firstOfEach_visits_singleton (t : FileTree) (scope : Path) :
    firstOfEach FoundFile.identity (t.visits [scope]) = t.visibleFiles scope := by
  have hvisits : t.visits [scope] = t.visibleFiles scope := by simp [visits]
  rw [hvisits]
  exact firstOfEach_eq_self (nodup_identity_visibleFiles t scope)

theorem exists_shows_of_mem_visits {file : FoundFile} (h : file ∈ t.visits scopes) :
    ∃ scope ∈ scopes, ∃ names, t.Shows scope names file := by
  obtain ⟨scope, hscope, hfile⟩ := List.mem_flatMap.1 h
  exact ⟨scope, hscope, exists_shows_of_visibleFiles hfile⟩

theorem mem_visits_of_visibleInAll {file : FoundFile} (h : file ∈ t.visibleInAll scopes) :
    file ∈ t.visits scopes ∧ Path.isTooLong file.path = false := by
  rw [visibleInAll_eq, List.mem_filter, mem_firstOfEach_iff] at h
  exact ⟨List.mem_of_find?_eq_some h.1, by simpa using h.2⟩

/-- **Found files are at or below the location of a scope.** -/
theorem exists_location_of_visibleInAll {scopes : List Path} {file : FoundFile}
    (h : file ∈ t.visibleInAll scopes) :
    ∃ scope ∈ scopes, ∃ here names, t.location? scope = some here ∧
      t.location? file.path = some (here ++ names) := by
  obtain ⟨scope, hscope, names, hshows⟩ := exists_shows_of_mem_visits (mem_visits_of_visibleInAll h).1
  obtain ⟨here, hhere, hlocation, -⟩ := hshows.location?
  exact ⟨scope, hscope, here, names, hhere, hlocation⟩

/-! ## First visits -/

/-- Of the visits of a file, under whatever spellings of its path, the first one passes a test if any
does. -/
def FirstVisitsCount (t : FileTree) (test : FoundFile → Bool) (scopes : List Path) : Prop :=
  ∀ file ∈ t.visits scopes, test file = true →
    ∀ first, (t.visits scopes).find? (·.identity == file.identity) = some first → test first = true

/-- A path is enough to know what was found. -/
theorem Shows.eq_of_path {scope other : Path} {names others : List FileName} {file found : FoundFile}
    (h : t.Shows scope names file) (hother : t.Shows other others found)
    (hpath : file.path = found.path) : file = found := by
  obtain ⟨here, -, hlocation, hat⟩ := h.location?
  obtain ⟨there, -, hlocation', hat'⟩ := hother.location?
  rw [hpath, hlocation', Option.some_inj] at hlocation
  rw [← hlocation, hat', Option.some_inj] at hat
  obtain ⟨path, content, dates⟩ := file
  obtain ⟨path', content', dates'⟩ := found
  obtain ⟨rfl, rfl⟩ := Node.file.inj hat
  rw [FoundFile.mk.injEq]
  exact ⟨hpath, rfl, rfl⟩

/-- Where a file is visited under one spelling of its path only, all of its visits pass a test or none. -/
theorem firstVisitsCount_of_paths (test : FoundFile → Bool)
    (h : ∀ a ∈ t.visits scopes, ∀ b ∈ t.visits scopes, a.identity = b.identity → a.path = b.path) :
    t.FirstVisitsCount test scopes := by
  intro file hfile htest first hfirst
  have hmem := List.mem_of_find?_eq_some hfirst
  have hidentity : first.identity = file.identity := by simpa using List.find?_some hfirst
  obtain ⟨_, -, _, hshows⟩ := exists_shows_of_mem_visits hfile
  obtain ⟨_, -, _, hshows'⟩ := exists_shows_of_mem_visits hmem
  rwa [hshows'.eq_of_path hshows (h first hmem file hfile hidentity)]

end FileTree

end MetadataSearch
