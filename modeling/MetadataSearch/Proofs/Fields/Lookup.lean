import MetadataSearch.Fields

/-!
# Looking names up in fields

What `Fields.find?` finds after fields were set, inserted or listed. Setting and inserting change the
value of one name only (`find?_set`, `find?_insert`). Where no name stands twice, the order of the
pairs does not matter for `Fields.ofList` (`find?_ofList`), and ascending fields are what it gives back
(`ofList_eq_self`).
-/

namespace MetadataSearch.Fields

variable {κ α : Type} [DecidableEq κ] {name : κ} {value : α} {fields : Fields α κ}

/-! ## Changing one name -/

/-- A new value at the front hides the old one. -/
theorem find?_replace (old : α) (rest : Fields α κ) (other : κ) :
    Fields.find? other ((name, value) :: rest) =
      if name = other then some value else Fields.find? other ((name, old) :: rest) := by
  rw [find?, find?]
  by_cases hother : name = other
  · rw [if_pos hother, if_pos hother]
  · rw [if_neg hother, if_neg hother, if_neg hother]

/-- A change of one name behind a field with another name is one of the whole. -/
theorem find?_behind {n other : κ} {v : α} {changed rest : Fields α κ} (hn : n ≠ name)
    (h : changed.find? other = if name = other then some value else rest.find? other) :
    Fields.find? other ((n, v) :: changed) =
      if name = other then some value else Fields.find? other ((n, v) :: rest) := by
  rw [find?, find?, h]
  by_cases hother : n = other
  · rw [if_pos hother, if_pos hother, if_neg fun heq => hn (hother.trans heq.symm)]
  · rw [if_neg hother, if_neg hother]

theorem find?_set (other : κ) :
    (fields.set name value).find? other = if name = other then some value else fields.find? other := by
  induction fields with
  | nil => rfl
  | cons field rest ih =>
    obtain ⟨n, v⟩ := field
    rw [set]
    by_cases hn : n = name
    · subst hn
      rw [if_pos rfl]
      exact find?_replace v rest other
    · rw [if_neg hn]
      exact find?_behind hn ih

variable [LT κ] [DecidableLT κ] in
theorem find?_insert (other : κ) :
    (fields.insert name value).find? other =
      if name = other then some value else fields.find? other := by
  induction fields with
  | nil => rfl
  | cons field rest ih =>
    obtain ⟨n, v⟩ := field
    rw [insert]
    by_cases hlt : name < n
    · rw [if_pos hlt, find?]
    · rw [if_neg hlt]
      by_cases hn : n = name
      · subst hn
        rw [if_pos rfl]
        exact find?_replace v rest other
      · rw [if_neg hn]
        exact find?_behind hn ih

theorem mem_of_mem_set {field : κ × α} (h : field ∈ fields.set name value) :
    field = (name, value) ∨ field ∈ fields := by
  induction fields with
  | nil => exact .inl (List.mem_singleton.1 h)
  | cons head rest ih =>
    obtain ⟨n, v⟩ := head
    rw [set] at h
    split at h
    case isTrue hn =>
      subst hn
      exact (List.mem_cons.1 h).imp_right (List.mem_cons_of_mem _)
    case isFalse =>
      rcases List.mem_cons.1 h with rfl | h
      · exact .inr List.mem_cons_self
      · exact (ih h).imp_right (List.mem_cons_of_mem _)

/-- A name that is there keeps its place. -/
theorem names_set_of_mem (h : name ∈ fields.names) : (fields.set name value).names = fields.names := by
  induction fields with
  | nil => cases h
  | cons field rest ih =>
    rw [set]
    by_cases hname : field.1 = name
    · rw [if_pos hname]
      rfl
    · rw [if_neg hname]
      exact congrArg (field.1 :: ·) (ih (List.mem_of_ne_of_mem (Ne.symm hname) h))

/-- A name that is new comes last. -/
theorem names_set_of_not_mem (h : name ∉ fields.names) :
    (fields.set name value).names = fields.names ++ [name] := by
  induction fields with
  | nil => rfl
  | cons field rest ih =>
    rw [names, List.map_cons, List.mem_cons, not_or] at h
    rw [set, if_neg (Ne.symm h.1)]
    exact congrArg (field.1 :: ·) (ih h.2)

/-! ## Taking a name away -/

theorem erase_cons_of_ne {field : κ × α} (h : field.1 ≠ name) (rest : Fields α κ) :
    Fields.erase name (field :: rest) = field :: Fields.erase name rest :=
  List.filter_cons_of_pos (bne_iff_ne.2 h)

theorem erase_cons_of_eq {field : κ × α} (h : field.1 = name) (rest : Fields α κ) :
    Fields.erase name (field :: rest) = Fields.erase name rest :=
  List.filter_cons_of_neg (by simp [h])

theorem erase_eq_self (h : ∀ field ∈ fields, field.1 ≠ name) : fields.erase name = fields :=
  List.filter_eq_self.2 fun field hmem => bne_iff_ne.2 (h field hmem)

variable [LT κ] [DecidableLT κ] in
/-- A name that was new can be taken away again. -/
theorem erase_insert (h : ∀ field ∈ fields, field.1 ≠ name) :
    (fields.insert name value).erase name = fields := by
  induction fields with
  | nil => exact erase_cons_of_eq rfl []
  | cons field rest ih =>
    obtain ⟨n, v⟩ := field
    have hn : n ≠ name := h (n, v) List.mem_cons_self
    by_cases hlt : name < n
    · have hnew : (name, value).1 = name := rfl
      rw [insert, if_pos hlt, erase_cons_of_eq hnew, erase_eq_self h]
    · rw [insert, if_neg hlt, if_neg hn, erase_cons_of_ne hn,
        ih fun field hmem => h field (List.mem_cons_of_mem _ hmem)]

/-! ## Listed fields -/

theorem find?_eq_none (h : name ∉ fields.names) : fields.find? name = none := by
  induction fields with
  | nil => rfl
  | cons field rest ih =>
    rw [names, List.map_cons, List.mem_cons, not_or] at h
    rw [find?, if_neg fun heq => h.1 heq.symm]
    exact ih h.2

theorem isSome_find?_iff : (fields.find? name).isSome = true ↔ name ∈ fields.names := by
  induction fields with
  | nil => exact ⟨fun h => (by cases h), fun h => (by cases h)⟩
  | cons field rest ih =>
    rw [find?, names, List.map_cons, List.mem_cons]
    by_cases hname : field.1 = name
    · rw [if_pos hname]
      exact iff_of_true rfl (.inl hname.symm)
    · rw [if_neg hname, ih, names]
      exact (or_iff_right (Ne.symm hname)).symm

theorem find?_append (left right : Fields α κ) :
    Fields.find? name (left ++ right) = (left.find? name).or (right.find? name) := by
  induction left with
  | nil => rfl
  | cons field left ih =>
    rw [List.cons_append, find?, find?, ih]
    split <;> rfl

/-- Where no name stands twice, it does not matter from which end a name is looked for. -/
theorem find?_reverse (h : fields.names.Nodup) (name : κ) :
    Fields.find? name fields.reverse = fields.find? name := by
  induction fields with
  | nil => rfl
  | cons field rest ih =>
    rw [names, List.map_cons, List.nodup_cons] at h
    rw [List.reverse_cons, find?_append, ih h.2, find?, find?, find?]
    by_cases hname : field.1 = name
    · have hnone : Fields.find? name rest = none := find?_eq_none (hname ▸ h.1)
      rw [if_pos hname, if_pos hname, hnone, Option.none_or]
    · rw [if_neg hname, if_neg hname, Option.or_none]

theorem find?_of_mem_of_nodup {field : κ × α} (h : fields.names.Nodup) (hmem : field ∈ fields) :
    fields.find? field.1 = some field.2 := by
  induction fields with
  | nil => cases hmem
  | cons head rest ih =>
    rw [names, List.map_cons, List.nodup_cons] at h
    rcases List.mem_cons.1 hmem with rfl | hmem
    · rw [find?, if_pos rfl]
    · have hne : head.1 ≠ field.1 := fun heq => h.1 (heq ▸ List.mem_map_of_mem hmem)
      rw [find?, if_neg hne]
      exact ih h.2 hmem

omit [DecidableEq κ] in
theorem Ascending.nodup [LT κ] [LE κ] [Std.LawfulOrderLT κ] (h : fields.Ascending) :
    fields.names.Nodup := by
  refine List.Pairwise.imp (fun {n other} hlt heq => ?_) h
  rw [heq] at hlt
  exact Std.lt_irrefl hlt

theorem find?_of_mem [LT κ] [LE κ] [Std.LawfulOrderLT κ] {field : κ × α} (h : fields.Ascending)
    (hmem : field ∈ fields) : fields.find? field.1 = some field.2 :=
  find?_of_mem_of_nodup h.nodup hmem

theorem find?_eq_map_find? (name : κ) (fields : Fields α κ) :
    Fields.find? name fields = (List.find? (fun field => field.1 == name) fields).map Prod.snd := by
  induction fields with
  | nil => rfl
  | cons field rest ih =>
    rw [find?, ih]
    by_cases h : field.1 = name
    · rw [if_pos h, List.find?_cons_of_pos (by simpa using h), Option.map_some]
    · rw [if_neg h, List.find?_cons_of_neg (by simpa using h)]

theorem not_mem_names_iff : name ∉ fields.names ↔ ∀ field ∈ fields, ¬ (field.1 == name) = true := by
  simp only [names, List.mem_map, not_exists, not_and, beq_iff_eq]

/-- What is found from the end is the value behind which the name does not come again. -/
theorem find?_reverse_eq_some_iff : Fields.find? name fields.reverse = some value ↔
    ∃ earlier later : Fields α κ, fields = earlier ++ (name, value) :: later ∧ name ∉ later.names := by
  rw [find?_eq_map_find?, Option.map_eq_some_iff]
  constructor
  · rintro ⟨⟨n, v⟩, hfind, rfl⟩
    obtain ⟨hname, later, earlier, hsplit, hlater⟩ := List.find?_eq_some_iff_append.1 hfind
    obtain rfl : n = name := by simpa using hname
    refine ⟨earlier.reverse, later.reverse, ?_, not_mem_names_iff.2 fun field hfield => ?_⟩
    · simpa using congrArg List.reverse hsplit
    · simpa using hlater field (List.mem_reverse.1 hfield)
  · rintro ⟨earlier, later, rfl, hlater⟩
    refine ⟨(name, value), List.find?_eq_some_iff_append.2 ⟨by simp, ?_⟩, rfl⟩
    refine ⟨later.reverse, earlier.reverse, by simp, fun field hfield => ?_⟩
    simpa using not_mem_names_iff.1 hlater field (List.mem_reverse.1 hfield)

/-- Of the values that are put under a name one after another, the last one stays. -/
theorem find?_foldl_put {σ : Type} {put : σ → κ × α → σ} (get : σ → Option α)
    (h : ∀ state pair, get (put state pair) = if pair.1 = name then some pair.2 else get state)
    (pairs : List (κ × α)) (state : σ) :
    get (pairs.foldl put state) = (Fields.find? name pairs.reverse).or (get state) := by
  induction pairs generalizing state with
  | nil => rfl
  | cons pair pairs ih =>
    rw [List.foldl_cons, ih, h, List.reverse_cons, find?_append, Option.or_assoc, find?]
    congr 1
    split <;> rfl

/-! ## Collected fields -/

variable [LT κ] [DecidableLT κ]

theorem find?_ofList_reverse (pairs : List (κ × α)) (name : κ) :
    Fields.find? name (ofList pairs) = Fields.find? name pairs.reverse := by
  have hput : ∀ (fields : Fields α κ) (pair : κ × α), (fields.insert pair.1 pair.2).find? name =
      if pair.1 = name then some pair.2 else fields.find? name := fun _ _ => find?_insert name
  rw [ofList, find?_foldl_put (Fields.find? name) hput, find?, Option.or_none]

theorem find?_ofList {pairs : List (κ × α)} (h : (names pairs).Nodup) (other : κ) :
    Fields.find? other (ofList pairs) = Fields.find? other pairs := by
  rw [find?_ofList_reverse, find?_reverse h]

theorem mem_of_mem_foldl_insert {pairs : List (κ × α)} {field : κ × α}
    (before : Fields α κ)
    (h : field ∈ pairs.foldl (fun fields pair => Fields.insert pair.1 pair.2 fields) before) :
    field ∈ before ∨ field ∈ pairs := by
  induction pairs generalizing before with
  | nil => exact .inl h
  | cons pair pairs ih =>
    rcases ih _ h with h | h
    · rcases mem_of_mem_insert h with rfl | h
      · exact .inr List.mem_cons_self
      · exact .inl h
    · exact .inr (List.mem_cons_of_mem _ h)

theorem mem_of_mem_ofList {pairs : List (κ × α)} {field : κ × α}
    (h : field ∈ ofList pairs) : field ∈ pairs :=
  (mem_of_mem_foldl_insert [] h).resolve_left List.not_mem_nil

variable [LE κ] [Std.LawfulOrderLT κ] [Std.IsLinearOrder κ]

theorem ascending_foldl_insert (pairs : List (κ × α)) {before : Fields α κ}
    (h : before.Ascending) :
    Ascending (pairs.foldl (fun fields pair => Fields.insert pair.1 pair.2 fields) before) := by
  induction pairs generalizing before with
  | nil => exact h
  | cons pair pairs ih => exact ih (ascending_insert h)

theorem ascending_ofList (pairs : List (κ × α)) : (ofList pairs).Ascending :=
  ascending_foldl_insert pairs List.Pairwise.nil

/-! ## Ascending fields -/

theorem insert_of_forall_lt (h : ∀ field ∈ fields, field.1 < name) :
    fields.insert name value = fields ++ [(name, value)] := by
  induction fields with
  | nil => rfl
  | cons field fields ih =>
    obtain ⟨n, v⟩ := field
    have hn : n < name := h (n, v) List.mem_cons_self
    have hne : n ≠ name := fun heq => Std.lt_irrefl (heq ▸ hn)
    rw [insert, if_neg (fun hlt => Std.lt_irrefl (Std.lt_trans hlt hn)), if_neg hne,
      ih fun field hmem => h field (List.mem_cons_of_mem _ hmem)]
    rfl

/-- Ascending fields are collected as they are. -/
theorem foldl_insert_of_ascending {before : Fields α κ} (h : Ascending (before ++ fields)) :
    fields.foldl (fun fields pair => Fields.insert pair.1 pair.2 fields) before = before ++ fields := by
  induction fields generalizing before with
  | nil => exact (List.append_nil before).symm
  | cons field rest ih =>
    have hbefore : ∀ other ∈ before, other.1 < field.1 := by
      intro other hother
      rw [Ascending, names, List.map_append, List.pairwise_append] at h
      exact h.2.2 _ (List.mem_map_of_mem hother) _ List.mem_cons_self
    rw [List.append_cons] at h
    rw [List.foldl_cons, insert_of_forall_lt hbefore, ih h, ← List.append_cons]

theorem ofList_eq_self (h : fields.Ascending) : ofList fields = fields := by
  have hall : Ascending ([] ++ fields) := h
  exact foldl_insert_of_ascending hall

end MetadataSearch.Fields
