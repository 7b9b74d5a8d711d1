/-!
# Named fields

Lists of pairs of a name and a value, used in two ways: in the order in which names were first set,
and in ascending order of names. Names are texts, or the bytes of file names. Texts are compared by code
points, which is the order of their UTF-8 bytes.

- `Fields.find?` is the value of the first pair with a name.
- `Fields.set` replaces the value of a name where it stands, or appends a new pair.
- `Fields.insert` replaces or inserts in ascending order; `Fields.ofList` inserts one after another,
  so that the last value of a name stays.
-/

namespace MetadataSearch

abbrev Fields (α : Type) (κ : Type := String) := List (κ × α)

namespace Fields

variable {κ α : Type}

def names (fields : Fields α κ) : List κ := fields.map Prod.fst

section Names

variable [DecidableEq κ]

def find? (name : κ) : Fields α κ → Option α
  | [] => none
  | (n, v) :: rest => if n = name then some v else find? name rest

/-- Sets a value, in place if the name is there and at the end if not. -/
def set (name : κ) (value : α) : Fields α κ → Fields α κ
  | [] => [(name, value)]
  | (n, v) :: rest => if n = name then (n, value) :: rest else (n, v) :: set name value rest

/-- Takes a name away. -/
def erase (name : κ) (fields : Fields α κ) : Fields α κ := fields.filter (·.1 != name)

theorem mem_of_find? {name : κ} {value : α} {fields : Fields α κ}
    (h : fields.find? name = some value) : (name, value) ∈ fields := by
  fun_induction find? name fields <;> simp_all

/-! ## Ascending names -/

variable [LT κ] [DecidableLT κ]

/-- Sets a value among ascending names. -/
def insert (name : κ) (value : α) : Fields α κ → Fields α κ
  | [] => [(name, value)]
  | (n, v) :: rest =>
    if name < n then (name, value) :: (n, v) :: rest
    else if n = name then (name, value) :: rest
    else (n, v) :: insert name value rest

/-- The pairs in ascending order of names, the last value of each name. -/
def ofList (pairs : List (κ × α)) : Fields α κ :=
  pairs.foldl (fun fields pair => fields.insert pair.1 pair.2) []

theorem mem_of_mem_insert {name : κ} {value : α} {fields : Fields α κ} {field : κ × α}
    (h : field ∈ fields.insert name value) : field = (name, value) ∨ field ∈ fields := by
  fun_induction insert name value fields <;> grind

end Names

/-- The names stand in strictly ascending order. -/
def Ascending [LT κ] (fields : Fields α κ) : Prop := fields.names.Pairwise (· < ·)

theorem ascending_erase [DecidableEq κ] [LT κ] {name : κ} {fields : Fields α κ}
    (h : fields.Ascending) : (fields.erase name).Ascending :=
  List.Pairwise.sublist (List.Sublist.map _ List.filter_sublist) h

theorem ascending_insert [DecidableEq κ] [LT κ] [DecidableLT κ] [LE κ] [Std.LawfulOrderLT κ]
    [Std.IsLinearOrder κ] {name : κ} {value : α} {fields : Fields α κ} (h : fields.Ascending) :
    (fields.insert name value).Ascending := by
  unfold Ascending names at *
  fun_induction insert name value fields with
  | case1 => simp
  | case2 n v rest hlt =>
    simp only [List.map_cons, List.pairwise_cons, List.mem_cons] at h ⊢
    refine ⟨fun a ha => ?_, h⟩
    rcases ha with rfl | ha
    · exact hlt
    · exact Std.lt_trans hlt (h.1 a ha)
  | case3 v rest hlt => simpa using h
  | case4 n v rest hlt hne ih =>
    simp only [List.map_cons, List.pairwise_cons] at h ⊢
    refine ⟨fun a ha => ?_, ih h.2⟩
    obtain ⟨field, hmem, rfl⟩ := List.mem_map.1 ha
    rcases mem_of_mem_insert hmem with rfl | hmem
    · exact Std.lt_of_le_of_ne (Std.not_lt.1 hlt) hne
    · exact h.1 _ (List.mem_map_of_mem hmem)

end Fields

end MetadataSearch
