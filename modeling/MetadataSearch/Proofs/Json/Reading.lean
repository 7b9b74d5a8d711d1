import MetadataSearch.Json.Reader
import MetadataSearch.Proofs.Fields.Lookup
import MetadataSearch.Proofs.Json.Tokens
import MetadataSearch.Proofs.Text.ByteOrder

/-!
# Reading written JSON

**Theorem (`read?_write`).** A JSON value without doubles whose objects have their names in ascending
order is read back from its compact text, if it is nested no deeper than the reader allows.

The machine takes the text of one value to the phase after that value and leaves its stack alone
(`run?_write`). The proof is an induction over the value together with the items and members that
follow a first one: each of these is read with the part before it on top of the stack. Members are
inserted in order of names, so ascending ones end up in the order in which they were written.
-/

namespace MetadataSearch

namespace Json

/-! ## Shapes -/

mutual

/-- No double anywhere. -/
def NoReal : Json → Prop
  | .real _ => False
  | .array items => NoRealItems items
  | .object fields => NoRealFields fields
  | _ => True

def NoRealItems : List Json → Prop
  | [] => True
  | item :: items => item.NoReal ∧ NoRealItems items

def NoRealFields : List (String × Json) → Prop
  | [] => True
  | (_, value) :: fields => value.NoReal ∧ NoRealFields fields

end

mutual

/-- What holds of the names of every object, at every level. -/
def EveryObject (p : List String → Prop) : Json → Prop
  | .array items => EveryObjectOfItems p items
  | .object fields => p (Fields.names fields) ∧ EveryObjectOfFields p fields
  | _ => True

def EveryObjectOfItems (p : List String → Prop) : List Json → Prop
  | [] => True
  | item :: items => item.EveryObject p ∧ EveryObjectOfItems p items

def EveryObjectOfFields (p : List String → Prop) : List (String × Json) → Prop
  | [] => True
  | (_, value) :: fields => value.EveryObject p ∧ EveryObjectOfFields p fields

end

mutual

/-- How deep arrays and objects are nested. -/
def depth : Json → Nat
  | .array items => 1 + itemsDepth items
  | .object fields => 1 + fieldsDepth fields
  | _ => 0

def itemsDepth : List Json → Nat
  | [] => 0
  | item :: items => max item.depth (itemsDepth items)

def fieldsDepth : List (String × Json) → Nat
  | [] => 0
  | (_, value) :: fields => max value.depth (fieldsDepth fields)

end

/-! ## Steps of the machine -/

namespace Reading

variable {limit : Nat} {stack : List Frame} {rest after : List Char}

theorem run?_token {r next : Reading} {c : Char} {t : Token} (hresult : r.result? = none)
    (hspace : isSpace c = false) (ht : token? c rest = some (t, after))
    (hstep : r.step limit t = some next) : r.run? limit (c :: rest) = next.run? limit after := by
  rw [run?.eq_def]
  simp only [hresult, hspace, Bool.false_eq_true, if_false]
  split
  · next h =>
    rw [ht] at h
    cases h
  · next t' after' h =>
    rw [ht] at h
    obtain ⟨rfl, rfl⟩ := Prod.mk.inj (Option.some.inj h)
    rw [hstep, Option.bind_some]

/-- The phases in which a value may begin. -/
def Expecting (phase : Phase) : Prop := phase = .value ∨ phase = .firstItem

theorem result?_expecting {phase : Phase} (h : Expecting phase) :
    (⟨stack, phase⟩ : Reading).result? = none := by
  rcases h with rfl | rfl <;> cases stack <;> rfl

theorem step_expecting {phase : Phase} {t : Token} (h : Expecting phase) (ht : t ≠ .closeArray) :
    step limit ⟨stack, phase⟩ t = beginValue? limit stack t := by
  rcases h with rfl | rfl
  · rfl
  · cases t with
    | closeArray => exact absurd rfl ht
    | _ => rfl

/-- A token that is a whole value. -/
theorem run?_scalar {phase : Phase} (h : Expecting phase) {c : Char} {t : Token} {j : Json}
    (hspace : isSpace c = false) (ht : token? c rest = some (t, after))
    (hj : t = .scalar j ∨ ∃ s, t = .string s ∧ j = .string s) :
    (⟨stack, phase⟩ : Reading).run? limit (c :: rest) =
      (⟨stack, .after j⟩ : Reading).run? limit after := by
  refine run?_token (result?_expecting h) hspace ht ?_
  rcases hj with rfl | ⟨s, rfl, rfl⟩
  · exact step_expecting h (by simp)
  · exact step_expecting h (by simp)

theorem run?_openArray {phase : Phase} (h : Expecting phase) (hdepth : stack.length < limit) :
    (⟨stack, phase⟩ : Reading).run? limit ('[' :: rest) =
      (⟨.array [] :: stack, .firstItem⟩ : Reading).run? limit rest := by
  refine run?_token (result?_expecting h) rfl rfl ?_
  rw [step_expecting h (by simp), beginValue?, if_pos hdepth]

theorem run?_openObject {phase : Phase} (h : Expecting phase) (hdepth : stack.length < limit) :
    (⟨stack, phase⟩ : Reading).run? limit ('\x7b' :: rest) =
      (⟨stack, .firstName⟩ : Reading).run? limit rest := by
  refine run?_token (result?_expecting h) rfl rfl ?_
  rw [step_expecting h (by simp), beginValue?, if_pos hdepth]

/-- A name with its colon, in either phase in which a name may stand. -/
theorem run?_name {phase : Phase} {fields : Fields Json} (name : String)
    (h : (phase = .firstName ∧ fields = []) ∨ phase = .name fields) :
    (⟨stack, phase⟩ : Reading).run? limit (writeString name ++ ':' :: rest) =
      (⟨.object fields name :: stack, .value⟩ : Reading).run? limit rest := by
  have read : (⟨stack, phase⟩ : Reading).run? limit (writeString name ++ ':' :: rest) =
      (⟨stack, .colon fields name⟩ : Reading).run? limit (':' :: rest) := by
    rw [writeString, List.cons_append, List.cons_append, List.append_assoc, List.singleton_append]
    refine run?_token ?_ rfl (token?_string name (':' :: rest)) ?_
    · rcases h with ⟨rfl, -⟩ | rfl <;> cases stack <;> rfl
    · rcases h with ⟨rfl, rfl⟩ | rfl <;> rfl
  rw [read]
  refine run?_token ?_ rfl rfl rfl
  cases stack <;> rfl

end Reading

/-! ## Whole values -/

theorem endsNumber_items (items : List Json) (rest : List Char) :
    EndsNumber (writeItems items ++ ']' :: rest) := by
  cases items with
  | nil => exact endsNumber_cons (.inr (.inl rfl))
  | cons item items => exact endsNumber_cons (.inl rfl)

theorem endsNumber_fields (fields : List (String × Json)) (rest : List Char) :
    EndsNumber (writeFields fields ++ '\x7d' :: rest) := by
  cases fields with
  | nil => exact endsNumber_cons (.inr (.inr rfl))
  | cons field fields => exact endsNumber_cons (.inl rfl)

/-- Where the names ascend, a member is inserted behind those before it. -/
theorem insert_of_ascend {before fields : List (String × Json)} {name : String} (j : Json)
    (h : Text.Ascend (Fields.names (before ++ (name, j) :: fields))) :
    Fields.insert name j before = before ++ [(name, j)] := by
  refine Fields.insert_of_forall_lt fun field hmem => ?_
  rw [Text.Ascend, Fields.names, List.map_append, List.pairwise_append] at h
  exact h.2.2 field.1 (List.mem_map_of_mem hmem) name List.mem_cons_self

mutual

/-- The text of a value takes the machine past that value. -/
theorem run?_write {limit : Nat} : (j : Json) → {stack : List Frame} → {phase : Phase} →
    {rest : List Char} → Reading.Expecting phase → j.NoReal → j.EveryObject Text.Ascend →
    stack.length + j.depth ≤ limit → EndsNumber rest →
    (⟨stack, phase⟩ : Reading).run? limit (j.write ++ rest) =
      (⟨stack, .after j⟩ : Reading).run? limit rest
  | .null, stack, phase, rest, hphase, _, _, _, _ =>
    Reading.run?_scalar hphase rfl (t := .scalar .null) rfl (.inl rfl)
  | .bool true, stack, phase, rest, hphase, _, _, _, _ =>
    Reading.run?_scalar hphase rfl (t := .scalar (.bool true)) rfl (.inl rfl)
  | .bool false, stack, phase, rest, hphase, _, _, _, _ =>
    Reading.run?_scalar hphase rfl (t := .scalar (.bool false)) rfl (.inl rfl)
  | .integer n, stack, phase, rest, hphase, _, _, _, hrest => by
    obtain ⟨c, more, htext, hc, ht⟩ := token?_ofInt n hrest
    have hspace : isSpace c = false := by
      rcases hc with rfl | hc
      · rfl
      · cases hs : isSpace c with
        | false => rfl
        | true =>
          simp only [isSpace, Bool.or_eq_true, beq_iff_eq] at hs
          rcases hs with ((rfl | rfl) | rfl) | rfl <;> cases hc
    rw [write, htext]
    exact Reading.run?_scalar hphase hspace ht (.inl rfl)
  | .string s, stack, phase, rest, hphase, _, _, _, _ => by
    rw [write, writeString, List.cons_append, List.cons_append, List.append_assoc,
      List.singleton_append]
    exact Reading.run?_scalar hphase rfl (token?_string s rest) (.inr ⟨s, rfl, rfl⟩)
  | .array [], stack, phase, rest, hphase, _, _, hdepth, _ => by
    have hroom : stack.length < limit := by
      simp only [depth, itemsDepth] at hdepth
      omega
    rw [write, List.cons_append, Reading.run?_openArray hphase hroom]
    exact Reading.run?_token rfl rfl rfl rfl
  | .array (item :: items), stack, phase, rest, hphase, hreal, hobject, hdepth, _ => by
    simp only [depth, itemsDepth] at hdepth
    have hroom : stack.length < limit := by omega
    have htext : (Json.array (item :: items)).write ++ rest =
        '[' :: (item.write ++ (writeItems items ++ ']' :: rest)) := by
      simp only [write, List.cons_append, List.append_assoc, List.nil_append]
    rw [htext, Reading.run?_openArray hphase hroom,
      run?_write item (.inr rfl) hreal.1 hobject.1 (by simp only [List.length_cons]; omega)
        (endsNumber_items items rest),
      run?_writeItems items hreal.2 hobject.2 (by omega)]
    rfl
  | .object [], stack, phase, rest, hphase, _, _, hdepth, _ => by
    have hroom : stack.length < limit := by
      simp only [depth, fieldsDepth] at hdepth
      omega
    rw [write, List.cons_append, Reading.run?_openObject hphase hroom]
    refine Reading.run?_token ?_ rfl rfl rfl
    cases stack <;> rfl
  | .object ((name, value) :: fields), stack, phase, rest, hphase, hreal, hobject, hdepth, _ => by
    simp only [depth, fieldsDepth] at hdepth
    have hroom : stack.length < limit := by omega
    have hnames : Text.Ascend (Fields.names ([] ++ (name, value) :: fields)) := hobject.1
    have htext : (Json.object ((name, value) :: fields)).write ++ rest =
        '\x7b' :: (writeString name ++ ':' ::
          (value.write ++ (writeFields fields ++ '\x7d' :: rest))) := by
      simp only [write, List.cons_append, List.append_assoc, List.nil_append]
    rw [htext, Reading.run?_openObject hphase hroom, Reading.run?_name name (.inl ⟨rfl, rfl⟩),
      run?_write value (.inl rfl) hreal.1 hobject.2.1 (by simp only [List.length_cons]; omega)
        (endsNumber_fields fields rest),
      run?_writeFields fields hnames hreal.2 hobject.2.2 (by omega)]
    rfl

/-- The further items of an array and its end take the machine past the array. -/
theorem run?_writeItems {limit : Nat} : (items : List Json) → {stack : List Frame} →
    {before : List Json} → {j : Json} → {rest : List Char} → NoRealItems items →
    EveryObjectOfItems Text.Ascend items → stack.length + 1 + itemsDepth items ≤ limit →
    (⟨.array before :: stack, .after j⟩ : Reading).run? limit (writeItems items ++ ']' :: rest) =
      (⟨stack, .after (.array (before.reverse ++ j :: items))⟩ : Reading).run? limit rest
  | [], stack, before, j, rest, _, _, _ => by
    refine Reading.run?_token rfl rfl rfl ?_
    rw [← List.reverse_cons]
    rfl
  | item :: items, stack, before, j, rest, hreal, hobject, hdepth => by
    simp only [itemsDepth] at hdepth
    have htext : writeItems (item :: items) ++ ']' :: rest =
        ',' :: (item.write ++ (writeItems items ++ ']' :: rest)) := by
      simp only [writeItems, List.cons_append, List.append_assoc]
    have hcomma : (⟨.array before :: stack, .after j⟩ : Reading).run? limit
        (',' :: (item.write ++ (writeItems items ++ ']' :: rest))) =
        (⟨.array (j :: before) :: stack, .value⟩ : Reading).run? limit
          (item.write ++ (writeItems items ++ ']' :: rest)) :=
      Reading.run?_token rfl rfl rfl rfl
    rw [htext, hcomma,
      run?_write item (.inl rfl) hreal.1 hobject.1 (by simp only [List.length_cons]; omega)
        (endsNumber_items items rest),
      run?_writeItems items hreal.2 hobject.2 (by omega), List.reverse_cons, List.append_assoc]
    rfl

/-- The further members of an object and its end take the machine past the object. -/
theorem run?_writeFields {limit : Nat} : (fields : List (String × Json)) → {stack : List Frame} →
    {before : Fields Json} → {name : String} → {j : Json} → {rest : List Char} →
    Text.Ascend (Fields.names (before ++ (name, j) :: fields)) → NoRealFields fields →
    EveryObjectOfFields Text.Ascend fields → stack.length + 1 + fieldsDepth fields ≤ limit →
    (⟨.object before name :: stack, .after j⟩ : Reading).run? limit
        (writeFields fields ++ '\x7d' :: rest) =
      (⟨stack, .after (.object (before ++ (name, j) :: fields))⟩ : Reading).run? limit rest
  | [], stack, before, name, j, rest, hnames, _, _, _ => by
    refine Reading.run?_token rfl rfl rfl ?_
    rw [← insert_of_ascend j hnames]
    rfl
  | (next, value) :: fields, stack, before, name, j, rest, hnames, hreal, hobject, hdepth => by
    simp only [fieldsDepth] at hdepth
    have htext : writeFields ((next, value) :: fields) ++ '\x7d' :: rest =
        ',' :: (writeString next ++ ':' ::
          (value.write ++ (writeFields fields ++ '\x7d' :: rest))) := by
      simp only [writeFields, List.cons_append, List.append_assoc]
    have hcomma : (⟨.object before name :: stack, .after j⟩ : Reading).run? limit
        (',' :: (writeString next ++ ':' ::
          (value.write ++ (writeFields fields ++ '\x7d' :: rest)))) =
        (⟨stack, .name (before ++ [(name, j)])⟩ : Reading).run? limit
          (writeString next ++ ':' :: (value.write ++ (writeFields fields ++ '\x7d' :: rest))) := by
      refine Reading.run?_token rfl rfl rfl ?_
      rw [← insert_of_ascend j hnames]
      rfl
    have hmoved : before ++ (name, j) :: (next, value) :: fields =
        before ++ [(name, j)] ++ (next, value) :: fields := by
      rw [List.append_assoc, List.singleton_append]
    rw [htext, hcomma, Reading.run?_name next (.inr rfl),
      run?_write value (.inl rfl) hreal.1 hobject.1 (by simp only [List.length_cons]; omega)
        (endsNumber_fields fields rest),
      run?_writeFields fields (hmoved ▸ hnames) hreal.2 hobject.2 (by omega), hmoved]

end

/-- **Reading undoes writing.** -/
theorem read?_write {limit : Nat} {j : Json} (hreal : j.NoReal) (hobject : j.EveryObject Text.Ascend)
    (hdepth : j.depth ≤ limit) : read? limit j.write = some j := by
  have hrun : (⟨[], .value⟩ : Reading).run? limit (j.write ++ []) =
      (⟨[], .after j⟩ : Reading).run? limit [] :=
    run?_write j (.inl rfl) hreal hobject (by simpa using hdepth) endsNumber_nil
  have hfront : readFront? limit j.write = some (j, []) := by
    rw [List.append_nil] at hrun
    rw [readFront?, Reading.start, hrun, Reading.run?.eq_def]
    rfl
  rw [read?, hfront]
  rfl

end Json

end MetadataSearch
