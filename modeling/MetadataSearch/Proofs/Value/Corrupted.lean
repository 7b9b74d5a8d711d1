import MetadataSearch.Proofs.Value.RoundTrip

/-!
# What no value can hold

**Theorem (`ofJson_first_corrupted`).** A JSON value is refused exactly if a null or a boolean stands
somewhere in it, and the error leads to the first of them: depth first, the items of an array by their
index and the members of an object by the bytes of their names.

Both loops, over items and over members, take the front first and go on only if that holds nothing bad.
All that the rest holds comes after the front (`Reports.seq`), so the first bad part of the whole is the
first one of the front, or of the rest if the front has none. For members this needs that the names
ascend.
-/

namespace MetadataSearch

open Value (Step BadShape)

/-! ## Bad parts -/

/-- A part that no value can hold stands at a path. -/
inductive Json.BadAt : Json → List Step → BadShape → Prop
  | null : BadAt .null [] .null
  | bool (value : Bool) : BadAt (.bool value) [] .bool
  | item {items : List Json} {i : Nat} {j : Json} {path : List Step} {shape : BadShape}
      (hitem : items[i]? = some j) (hbad : BadAt j path shape) :
      BadAt (.array items) (.index i :: path) shape
  | member {fields : List (String × Json)} {name : String} {j : Json} {path : List Step}
      {shape : BadShape} (hmember : (name, j) ∈ fields) (hbad : BadAt j path shape) :
      BadAt (.object fields) (.member name :: path) shape

namespace Value

/-- A step comes before another one from the same place. -/
inductive Step.Before : Step → Step → Prop
  | index {i k : Nat} (h : i < k) : Before (.index i) (.index k)
  | member {name other : String} (h : Text.encode name.toList < Text.encode other.toList) :
      Before (.member name) (.member other)

/-- The error leads to the first of the bad parts, depth first. -/
structure IsFirst (bad : List Step → BadShape → Prop) (e : Corrupted) : Prop where
  stands : bad e.path e.shape
  first : ∀ path shape, bad path shape → path = e.path ∨ List.Lex Step.Before e.path path

/-- An outcome reports the first of the bad parts, or there is none. -/
def Reports {α : Type} (bad : List Step → BadShape → Prop) : Except Corrupted α → Prop
  | .ok _ => ∀ path shape, ¬ bad path shape
  | .error e => IsFirst bad e

section

variable {α β γ : Type} {bad : List Step → BadShape → Prop}

theorem Reports.map {outcome : Except Corrupted α} (h : Reports bad outcome) (f : α → β) :
    Reports bad (outcome.map f) := by
  cases outcome with
  | ok a => exact h
  | error e => exact h

/-- A front and what comes after it: the first bad part of the front is that of the whole. -/
theorem Reports.seq {front : Except Corrupted α} {rest : Except Corrupted β} {join : α → β → γ}
    {step : Step} {inFront inRest : List Step → BadShape → Prop} (hfront : Reports inFront front)
    (hrest : Reports inRest rest)
    (hafter : ∀ path shape, inRest path shape → ∃ next more, path = next :: more ∧ step.Before next)
    (hbad : ∀ path shape, bad path shape ↔
      (∃ more, path = step :: more ∧ inFront more shape) ∨ inRest path shape) :
    Reports bad (do
      let a ← front.mapError (Corrupted.under step)
      let b ← rest
      return join a b) := by
  cases front with
  | error e =>
    refine ⟨(hbad _ _).2 (.inl ⟨e.path, rfl, hfront.stands⟩), fun path shape h => ?_⟩
    rcases (hbad path shape).1 h with ⟨more, rfl, hmore⟩ | hrest
    · rcases hfront.first more shape hmore with rfl | hlex
      · exact .inl rfl
      · exact .inr (.cons hlex)
    · obtain ⟨next, more, rfl, hbefore⟩ := hafter path shape hrest
      exact .inr (.rel hbefore)
  | ok a =>
    have hnone : ∀ path shape, bad path shape → inRest path shape := by
      intro path shape h
      rcases (hbad path shape).1 h with ⟨more, -, h⟩ | h
      · exact absurd h (hfront more shape)
      · exact h
    cases rest with
    | error e =>
      exact ⟨(hbad _ _).2 (.inr hrest.stands), fun path shape h => hrest.first path shape (hnone path shape h)⟩
    | ok b => exact fun path shape h => hrest path shape (hnone path shape h)

end

/-! ## Items and members -/

/-- What stands in items of which the first has index `i`. -/
def BadInItems (i : Nat) (items : List Json) (path : List Step) (shape : BadShape) : Prop :=
  ∃ k j more, path = .index (i + k) :: more ∧ items[k]? = some j ∧ j.BadAt more shape

def BadInMembers (fields : List (String × Json)) (path : List Step) (shape : BadShape) : Prop :=
  ∃ name j more, path = .member name :: more ∧ (name, j) ∈ fields ∧ j.BadAt more shape

theorem badInItems_zero_iff {items : List Json} {path : List Step} {shape : BadShape} :
    BadInItems 0 items path shape ↔ (Json.array items).BadAt path shape := by
  constructor
  · rintro ⟨k, j, more, rfl, hitem, hbad⟩
    rw [Nat.zero_add]
    exact .item hitem hbad
  · intro h
    cases h with
    | @item _ i j more _ hitem hbad => exact ⟨i, j, more, by rw [Nat.zero_add], hitem, hbad⟩

theorem badInMembers_iff {fields : List (String × Json)} {path : List Step} {shape : BadShape} :
    BadInMembers fields path shape ↔ (Json.object fields).BadAt path shape := by
  constructor
  · rintro ⟨name, j, more, rfl, hmember, hbad⟩
    exact .member hmember hbad
  · intro h
    cases h with
    | @member _ name j more _ hmember hbad => exact ⟨name, j, more, rfl, hmember, hbad⟩

theorem badInItems_cons_iff {i : Nat} {j : Json} {items : List Json} (path : List Step)
    (shape : BadShape) : BadInItems i (j :: items) path shape ↔
      (∃ more, path = .index i :: more ∧ j.BadAt more shape) ∨
        BadInItems (i + 1) items path shape := by
  constructor
  · rintro ⟨k, part, more, rfl, hitem, hbad⟩
    cases k with
    | zero =>
      obtain rfl := Option.some.inj hitem
      exact .inl ⟨more, rfl, hbad⟩
    | succ k => exact .inr ⟨k, part, more, by rw [Nat.add_right_comm]; rfl, hitem, hbad⟩
  · rintro (⟨more, rfl, hbad⟩ | ⟨k, part, more, rfl, hitem, hbad⟩)
    · exact ⟨0, j, more, rfl, rfl, hbad⟩
    · exact ⟨k + 1, part, more, by rw [Nat.add_right_comm]; rfl, hitem, hbad⟩

theorem badInMembers_cons_iff {name : String} {j : Json} {fields : List (String × Json)}
    (path : List Step) (shape : BadShape) : BadInMembers ((name, j) :: fields) path shape ↔
      (∃ more, path = .member name :: more ∧ j.BadAt more shape) ∨
        BadInMembers fields path shape := by
  constructor
  · rintro ⟨other, part, more, rfl, hmember, hbad⟩
    rcases List.mem_cons.1 hmember with heq | hmember
    · obtain ⟨rfl, rfl⟩ := Prod.mk.inj heq
      exact .inl ⟨more, rfl, hbad⟩
    · exact .inr ⟨other, part, more, rfl, hmember, hbad⟩
  · rintro (⟨more, rfl, hbad⟩ | ⟨other, part, more, rfl, hmember, hbad⟩)
    · exact ⟨name, j, more, rfl, List.mem_cons_self, hbad⟩
    · exact ⟨other, part, more, rfl, List.mem_cons_of_mem _ hmember, hbad⟩

theorem Step.before_of_badInItems {i : Nat} {items : List Json} {path : List Step}
    {shape : BadShape} (h : BadInItems (i + 1) items path shape) :
    ∃ next more, path = next :: more ∧ (Step.index i).Before next := by
  obtain ⟨k, -, more, rfl, -, -⟩ := h
  exact ⟨_, more, rfl, .index (by omega)⟩

theorem Step.before_of_badInMembers {name : String} {fields : List (String × Json)}
    {path : List Step} {shape : BadShape} (hnames : ∀ other ∈ Fields.names fields, name < other)
    (h : BadInMembers fields path shape) :
    ∃ next more, path = next :: more ∧ (Step.member name).Before next := by
  obtain ⟨other, j, more, rfl, hmember, -⟩ := h
  exact ⟨_, more, rfl, .member (Text.encode_lt_encode (hnames other (List.mem_map_of_mem hmember)))⟩

/-! ## Decoding -/

theorem Reports.of_iff {α : Type} {bad other : List Step → BadShape → Prop}
    {outcome : Except Corrupted α} (h : Reports bad outcome)
    (hiff : ∀ path shape, bad path shape ↔ other path shape) : Reports other outcome := by
  obtain rfl : bad = other := funext fun path => funext fun shape => propext (hiff path shape)
  exact h

mutual

theorem reports_ofJson : (j : Json) → j.EveryObject Text.Ascend → Reports j.BadAt (ofJson j)
  | .null, _ => ⟨.null, fun _ _ h => by cases h; exact .inl rfl⟩
  | .bool value, _ => ⟨.bool value, fun _ _ h => by cases h; exact .inl rfl⟩
  | .integer _, _ => fun _ _ h => by cases h
  | .real _, _ => fun _ _ h => by cases h
  | .string _, _ => fun _ _ h => by cases h
  | .array items, h => by
    have hitems := (reports_ofItems 0 items h).of_iff fun _ _ => badInItems_zero_iff
    rw [ofJson]
    exact hitems.map _
  | .object fields, h => by
    have hmembers := (reports_ofMembers fields h.1 h.2).of_iff fun _ _ => badInMembers_iff
    rw [ofJson]
    exact hmembers.map _

theorem reports_ofItems (i : Nat) : (items : List Json) →
    Json.EveryObjectOfItems Text.Ascend items → Reports (BadInItems i items) (ofItems i items)
  | [], _ => fun _ _ ⟨_, _, _, _, hitem, _⟩ => by cases hitem
  | j :: items, h =>
    (reports_ofJson j h.1).seq (reports_ofItems (i + 1) items h.2)
      (fun _ _ => Step.before_of_badInItems) badInItems_cons_iff

theorem reports_ofMembers : (fields : List (String × Json)) → Text.Ascend (Fields.names fields) →
    Json.EveryObjectOfFields Text.Ascend fields → Reports (BadInMembers fields) (ofMembers fields)
  | [], _, _ => fun _ _ ⟨_, _, _, _, hmember, _⟩ => by cases hmember
  | (_, j) :: fields, hnames, h =>
    (reports_ofJson j h.1).seq (reports_ofMembers fields hnames.of_cons h.2)
      (fun _ _ => Step.before_of_badInMembers fun _ => List.rel_of_pairwise_cons hnames)
      badInMembers_cons_iff

end

/-! ## Errors -/

theorem Corrupted.pathText_eq (e : Corrupted) :
    e.pathText = "$" ++ String.join (e.path.map Step.text) := by
  have hfold : ∀ (path : List Step) (before : String),
      path.foldl (fun text step => text ++ step.text) before =
        before ++ String.join (path.map Step.text) := by
    intro path
    induction path with
    | nil => intro before; simp
    | cons step path ih => intro before; simp [ih, String.append_assoc]
  exact hfold e.path "$"

/-- **A JSON value is refused for the first null or boolean in it.** The path starts at the document,
and the message names what stands at its end. Objects hold their members by ascending names, which is
what the hypothesis says at every level. -/
theorem ofJson_first_corrupted {j : Json} (h : j.EveryObject Text.Ascend) :
    ((∃ e, ofJson j = .error e) ↔ ∃ path shape, j.BadAt path shape) ∧
      ∀ e, ofJson j = .error e →
        IsFirst j.BadAt e ∧ e.pathText = "$" ++ String.join (e.path.map Step.text) ∧
          e.message = "Data corrupted at $" ++ String.join (e.path.map Step.text) ++
            ": unable to decode metadata value from " ++ e.shape.text := by
  have hreports := reports_ofJson j h
  refine ⟨⟨?_, ?_⟩, fun e he => ?_⟩
  · rintro ⟨e, he⟩
    rw [he] at hreports
    exact ⟨e.path, e.shape, hreports.stands⟩
  · rintro ⟨path, shape, hbad⟩
    cases hj : ofJson j with
    | error e => exact ⟨e, rfl⟩
    | ok v =>
      rw [hj] at hreports
      exact absurd hbad (hreports path shape)
  · rw [he] at hreports
    have hopen : "Data corrupted at " ++ e.pathText =
        "Data corrupted at $" ++ String.join (e.path.map Step.text) :=
      (congrArg _ e.pathText_eq).trans (String.append_assoc ..).symm
    exact ⟨hreports, e.pathText_eq,
      congrArg (· ++ ": unable to decode metadata value from " ++ e.shape.text) hopen⟩

/-- Two nulls and a boolean, and before them an array without any. -/
def threeBad : Json :=
  .object [("a", .array [.integer 1, .array [], .object [("y", .string "null")]]),
    ("m.n", .array [.string "true", .object [("k", .bool true), ("é", .null)]]), ("z", .null)]

theorem ofJson_first_corrupted_threeBad :
    ofJson threeBad = .error ⟨[.member "m.n", .index 1, .member "k"], .bool⟩ ∧
      IsFirst threeBad.BadAt ⟨[.member "m.n", .index 1, .member "k"], .bool⟩ ∧
      Corrupted.message ⟨[.member "m.n", .index 1, .member "k"], .bool⟩ =
        "Data corrupted at $.m.n[1].k: unable to decode metadata value from bool" := by
  have hobjects : threeBad.EveryObject Text.Ascend := by
    simp only [threeBad, Json.EveryObject, Json.EveryObjectOfItems, Json.EveryObjectOfFields,
      Text.Ascend]
    decide
  have herror : ofJson threeBad = .error ⟨[.member "m.n", .index 1, .member "k"], .bool⟩ := rfl
  obtain ⟨hfirst, -, hmessage⟩ := (ofJson_first_corrupted hobjects).2 _ herror
  exact ⟨herror, hfirst, hmessage.trans (by decide +kernel)⟩

end Value

end MetadataSearch
