import MetadataSearch.Proofs.Query.Compiling

/-!
# Comparisons of arrays

An array is compared through its leaves, the values that are left when all arrays in it are taken apart
(`RawValue.leaves`).

**Theorem (`Comparison.evalOn_leaves`).** A comparison for `ne` holds of a value iff no leaf equals the
operand, any other one iff some leaf satisfies it. So the nesting of the leaves, their order and their
repetitions do not matter, and without the attribute no comparison holds.

Values that have the same leaves are exactly those that can be rearranged into each other
(`RawValue.rearranged_iff`): by sorting, repeating and regrouping items, at any depth. One direction holds
of each step. For the other one, a value is first flattened, and then the leaves of both values are put
together in one array, from which either half can be taken away again.
-/

namespace MetadataSearch

namespace RawValue

def isArray : RawValue → Bool
  | .array _ => true
  | _ => false

mutual

/-- The values that are left when all arrays are taken apart. -/
def leaves : RawValue → List RawValue
  | .array items => leavesOf items
  | v => [v]

def leavesOf : List RawValue → List RawValue
  | [] => []
  | v :: items => v.leaves ++ leavesOf items

end

theorem mem_leavesOf {leaf : RawValue} {items : List RawValue} :
    leaf ∈ leavesOf items ↔ ∃ v ∈ items, leaf ∈ v.leaves := by
  induction items with
  | nil => simp [leavesOf]
  | cons v items ih => simp [leavesOf, ih]

theorem mem_leaves_array {leaf : RawValue} {items : List RawValue} :
    leaf ∈ (array items).leaves ↔ ∃ v ∈ items, leaf ∈ v.leaves :=
  mem_leavesOf

mutual

theorem isArray_of_mem_leaves : (v : RawValue) → ∀ leaf ∈ v.leaves, leaf.isArray = false
  | .array items => isArray_of_mem_leavesOf items
  | .string _ | .integer _ | .real _ | .date _ | .dictionary _ | .unsupported _ => by
    simp [leaves, isArray]

theorem isArray_of_mem_leavesOf : (items : List RawValue) →
    ∀ leaf ∈ leavesOf items, leaf.isArray = false
  | [] => by simp [leavesOf]
  | v :: items => by
    intro leaf hleaf
    rcases List.mem_append.1 hleaf with hleaf | hleaf
    · exact isArray_of_mem_leaves v leaf hleaf
    · exact isArray_of_mem_leavesOf items leaf hleaf

end

/-! ## Rearranging -/

/-- Two values that differ only in how their leaves are arranged. -/
inductive Rearranged : RawValue → RawValue → Prop
  | refl (v : RawValue) : Rearranged v v
  | symm {v w : RawValue} (h : Rearranged v w) : Rearranged w v
  | trans {v w x : RawValue} (h₁ : Rearranged v w) (h₂ : Rearranged w x) : Rearranged v x
  /-- The items of an array in another order. -/
  | permute {items others : List RawValue} (h : items.Perm others) :
      Rearranged (.array items) (.array others)
  /-- One more of an item that is there. -/
  | duplicate {v : RawValue} {items : List RawValue} (h : v ∈ items) :
      Rearranged (.array items) (.array (v :: items))
  /-- A value on its own, and an array of it alone. -/
  | alone (v : RawValue) : Rearranged v (.array [v])
  /-- Neighbours in an array of their own. -/
  | regroup (before group after : List RawValue) :
      Rearranged (.array (before ++ (group ++ after))) (.array (before ++ .array group :: after))
  /-- An item is rearranged where it stands. -/
  | inside (before : List RawValue) {v w : RawValue} (after : List RawValue) (h : Rearranged v w) :
      Rearranged (.array (before ++ v :: after)) (.array (before ++ w :: after))

namespace Rearranged

/-- **A rearranged value has the same leaves.** -/
theorem mem_leaves_iff {v w : RawValue} (h : Rearranged v w) (leaf : RawValue) :
    leaf ∈ v.leaves ↔ leaf ∈ w.leaves := by
  induction h with
  | refl v => rfl
  | symm h ih => exact ih.symm
  | trans h₁ h₂ ih₁ ih₂ => exact ih₁.trans ih₂
  | permute h => simp only [mem_leaves_array, h.mem_iff]
  | @duplicate v items h =>
    simp only [mem_leaves_array, List.mem_cons, exists_eq_or_imp]
    exact ⟨.inr, fun hleaf => hleaf.elim (fun hleaf => ⟨v, h, hleaf⟩) id⟩
  | alone v => simp [mem_leaves_array]
  | regroup before group after =>
    simp only [mem_leaves_array, List.mem_append, List.mem_cons, or_and_right, exists_or,
      exists_eq_left]
  | inside before after h ih =>
    simp only [mem_leaves_array, List.mem_append, List.mem_cons, or_and_right, exists_or,
      exists_eq_left, ih]

/-- Leaves that are there can be put in front once more. -/
theorem append_of_subset {items more : List RawValue} (h : more ⊆ items) :
    Rearranged (.array items) (.array (more ++ items)) := by
  induction more with
  | nil => exact .refl _
  | cons v more ih =>
    rw [List.cons_subset] at h
    exact .trans (ih h.2) (.duplicate (List.mem_append_right more h.1))

/-- Arrays with the same items. -/
theorem of_mem_iff {items others : List RawValue} (h : ∀ v, v ∈ items ↔ v ∈ others) :
    Rearranged (.array items) (.array others) := by
  have hmore : Rearranged (.array items) (.array (others ++ items)) :=
    append_of_subset fun v hv => (h v).2 hv
  have hless : Rearranged (.array others) (.array (items ++ others)) :=
    append_of_subset fun v hv => (h v).1 hv
  exact .trans hmore (.trans (.permute List.perm_append_comm) hless.symm)

end Rearranged

mutual

/-- A value can be flattened. -/
theorem rearranged_leaves : (v : RawValue) → Rearranged v (.array v.leaves)
  | .array items => rearranged_leavesOf [] items
  | .string _ | .integer _ | .real _ | .date _ | .dictionary _ | .unsupported _ => .alone _

theorem rearranged_leavesOf (before : List RawValue) : (items : List RawValue) →
    Rearranged (.array (before ++ items)) (.array (before ++ leavesOf items))
  | [] => .refl _
  | v :: items => by
    have hitem : Rearranged (.array (before ++ v :: items))
        (.array (before ++ .array v.leaves :: items)) := .inside before items (rearranged_leaves v)
    have hgroup : Rearranged (.array (before ++ .array v.leaves :: items))
        (.array (before ++ (v.leaves ++ items))) := (Rearranged.regroup before v.leaves items).symm
    have hitems := rearranged_leavesOf (before ++ v.leaves) items
    rw [List.append_assoc, List.append_assoc] at hitems
    exact .trans hitem (.trans hgroup hitems)

end

/-- **Values can be rearranged into each other iff they have the same leaves.** -/
theorem rearranged_iff {v w : RawValue} :
    Rearranged v w ↔ ∀ leaf, leaf ∈ v.leaves ↔ leaf ∈ w.leaves := by
  constructor
  · exact Rearranged.mem_leaves_iff
  · intro h
    exact .trans (rearranged_leaves v) (.trans (.of_mem_iff h) (rearranged_leaves w).symm)

end RawValue

namespace Query

/-! ## Comparing -/

variable {op : Comparator} {operand : Operand}

mutual

/-- **A value satisfies a comparator iff some leaf does.** -/
theorem satisfies_iff : (v : RawValue) →
    (satisfies op operand v = true ↔ ∃ leaf ∈ v.leaves, satisfiesLeaf op operand leaf = true)
  | .array items => someSatisfies_iff items
  | .string _ | .integer _ | .real _ | .date _ | .dictionary _ | .unsupported _ => by
    simp [satisfies, RawValue.leaves]

theorem someSatisfies_iff : (items : List RawValue) →
    (someSatisfies op operand items = true ↔
      ∃ leaf ∈ RawValue.leavesOf items, satisfiesLeaf op operand leaf = true)
  | [] => by simp [someSatisfies, RawValue.leavesOf]
  | v :: items => by
    simp only [someSatisfies, RawValue.leavesOf, Bool.or_eq_true, List.mem_append, or_and_right,
      exists_or, satisfies_iff v, someSatisfies_iff items]

end

namespace Comparison

/-- A comparison of an attribute that is missing or has a value. -/
def evalOn (c : Comparison) (value? : Option RawValue) : Bool := c.eval fun _ => value?

/-- A comparison looks at one attribute. -/
theorem eval_eq_evalOn (c : Comparison) (source : Source) : c.eval source = c.evalOn (source c.name) :=
  rfl

/-- What a comparison says of a value in terms of its leaves. -/
theorem evalOn_some_iff (c : Comparison) (v : RawValue) :
    c.evalOn (some v) = true ↔
      if c.op = .ne then ∀ leaf ∈ v.leaves, satisfiesLeaf .eq c.operand leaf = false
      else ∃ leaf ∈ v.leaves, satisfiesLeaf c.op c.operand leaf = true := by
  show (if c.op = .ne then !satisfies .eq c.operand v else satisfies c.op c.operand v) = true ↔ _
  by_cases hne : c.op = .ne
  · rw [if_pos hne, if_pos hne, Bool.not_eq_true', ← Bool.not_eq_true, satisfies_iff]
    simp
  · rw [if_neg hne, if_neg hne, satisfies_iff]

/-- Values with the same leaves compare alike. -/
theorem evalOn_congr (c : Comparison) {v w : RawValue}
    (h : ∀ leaf, leaf ∈ v.leaves ↔ leaf ∈ w.leaves) : c.evalOn (some v) = c.evalOn (some w) := by
  rw [Bool.eq_iff_iff, evalOn_some_iff, evalOn_some_iff]
  simp only [h]

/-- **An array is compared through its leaves.** -/
theorem evalOn_leaves (c : Comparison) :
    (∀ source : Source, c.eval source = c.evalOn (source c.name)) ∧
    c.evalOn none = false ∧
    ∀ v : RawValue,
      (∀ leaf ∈ v.leaves, leaf.isArray = false) ∧
      (c.evalOn (some v) = true ↔
        if c.op = .ne then ∀ leaf ∈ v.leaves, satisfiesLeaf .eq c.operand leaf = false
        else ∃ leaf ∈ v.leaves, satisfiesLeaf c.op c.operand leaf = true) ∧
      c.evalOn (some (.array v.leaves)) = c.evalOn (some v) ∧
      ∀ w, v.Rearranged w → c.evalOn (some w) = c.evalOn (some v) := by
  refine ⟨c.eval_eq_evalOn, rfl, fun v => ⟨v.isArray_of_mem_leaves, c.evalOn_some_iff v, ?_, ?_⟩⟩
  · exact (c.evalOn_congr v.rearranged_leaves.mem_leaves_iff).symm
  · intro w h
    exact (c.evalOn_congr h.mem_leaves_iff).symm

/-- Three leaves under empty and nested arrays, and the same ones sorted, one of them twice. -/
def nestedTags : RawValue := .array [.string "b", .array [.array [], .string "a"], .integer 1]

def sortedTags : RawValue := .array [.integer 1, .string "a", .string "a", .string "b"]

/-- The comparison of `k` with a text. -/
def ofTags (op : Comparator) (text : String) : Comparison :=
  ⟨"k", op, .text (.known text.toList false false)⟩

theorem evalOn_leaves_nestedTags :
    nestedTags.Rearranged sortedTags ∧
      (ofTags .ne "c").evalOn (some sortedTags) = (ofTags .ne "c").evalOn (some nestedTags) ∧
      (ofTags .ne "c").evalOn (some nestedTags) = true ∧
      (ofTags .ne "a").evalOn (some nestedTags) = false := by
  have h : nestedTags.Rearranged sortedTags := by
    rw [RawValue.rearranged_iff]
    intro leaf
    simp only [nestedTags, sortedTags, RawValue.leaves, RawValue.leavesOf, List.nil_append,
      List.cons_append, List.mem_cons, List.not_mem_nil]
    grind
  obtain ⟨-, -, hvalues⟩ := evalOn_leaves (ofTags .ne "c")
  exact ⟨h, (hvalues nestedTags).2.2.2 sortedTags h, rfl, rfl⟩

end Comparison

end Query

end MetadataSearch
