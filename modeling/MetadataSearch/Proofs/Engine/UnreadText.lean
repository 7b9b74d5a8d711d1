import MetadataSearch.Engine.TextOnDemand
import MetadataSearch.Proofs.Engine.FileSearch

/-!
# Text that nobody asks for

**Theorem (`unread_text`).** A filter gives the same answer on two sources that differ only in an attribute
to which it does not refer. So it makes no difference whether texts are read: the engine that reads a text
only when a comparison asks for it, and none at all for a filter that does not refer to the text, is the
engine that reads every text.

What was kept of a text is always what the file holds (`Candidate.Kept`). With that as the invariant a
reading gives a value that depends on the file alone, and it opens the file only if it needs the text.
`Candidate.Gives` says so of a reading, and sequences keep it (`Gives.bind`). For a filter the value is what
it says of the whole source (`gives_holds`).
-/

namespace MetadataSearch

/-! ## Readings -/

namespace Candidate

variable {limit : Nat}

/-- What was kept of the text is the text of the file. -/
def Kept (limit : Nat) (candidate : Candidate) : Prop :=
  ∀ text?, candidate.text? = some text? → text? = candidate.file.text? limit

/-- A reading of a candidate gives a value of its file. It leaves the candidate with the same file and
with its text kept, if at all, and opens nothing unless it needs the text. -/
def Gives {α : Type} (limit : Nat) (reading : Reading α) (value : FoundFile → α)
    (needsText : Bool) : Prop :=
  ∀ candidate opened, candidate.Kept limit → ∃ after more,
    reading (candidate, opened) = (value candidate.file, after, more) ∧
      after.file = candidate.file ∧ after.Kept limit ∧ (needsText = false → more = opened)

variable {α β : Type} {first : Reading α} {value : FoundFile → α}

theorem gives_pure (limit : Nat) (a : α) (needsText : Bool) :
    Gives limit (pure a : Reading α) (fun _ => a) needsText := fun candidate opened hkept =>
  ⟨candidate, opened, rfl, rfl, hkept, fun _ => rfl⟩

theorem Gives.bind {next : α → Reading β} {values : α → FoundFile → β} {needsText needsMore : Bool}
    (h : Gives limit first value needsText) (hnext : ∀ a, Gives limit (next a) (values a) needsMore) :
    Gives limit (first >>= next) (fun file => values (value file) file) (needsText || needsMore) := by
  intro candidate opened hkept
  obtain ⟨middle, here, hfirst, hfile, hmiddle, hopened⟩ := h candidate opened hkept
  obtain ⟨after, more, hsecond, hfile', hafter, hopened'⟩ := hnext _ middle here hmiddle
  refine ⟨after, more, ?_, hfile'.trans hfile, hafter, fun hneeds => ?_⟩
  · rw [← hfile, ← hsecond, hfile]
    exact congrArg (fun outcome : α × Candidate × List Path => next outcome.1 outcome.2) hfirst
  · rw [Bool.or_eq_false_iff] at hneeds
    exact (hopened' hneeds.2).trans (hopened hneeds.1)

theorem gives_readText : Gives limit (readText limit) (fun file => file.text? limit) true := by
  intro candidate opened hkept
  obtain ⟨file, text?⟩ := candidate
  have hneeds : true = false → ∀ more : List Path, more = opened := fun h => by cases h
  cases text? with
  | some text? =>
    exact ⟨_, _, by rw [readText, hkept text? rfl], rfl, hkept, fun h => hneeds h _⟩
  | none =>
    exact ⟨_, _, rfl, rfl, fun text? heq => (Option.some.inj heq).symm, fun h => hneeds h _⟩

/-- An attribute has the value that it has in the source of the file. -/
theorem gives_attribute? (limit : Nat) (name : String) :
    Gives limit (attribute? limit name) (fun file => file.source limit name)
      (name == Attribute.textContent) := by
  by_cases hname : name = Attribute.textContent
  · have hsource : (fun file : FoundFile => file.source limit name) =
        fun file => (file.text? limit).map .string := funext fun _ => if_pos hname
    have hread := gives_readText.bind fun text? =>
      gives_pure limit (text?.map RawValue.string) false
    rw [hsource, attribute?, if_pos hname, beq_iff_eq.2 hname]
    exact hread
  · intro candidate opened hkept
    have hsource : candidate.file.source limit name = candidate.file.item.get? name := if_neg hname
    refine ⟨candidate, opened, ?_, rfl, hkept, fun _ => rfl⟩
    dsimp only
    rw [attribute?, if_neg hname, hsource]
    rfl

end Candidate

namespace Query.Filter

open Candidate

/-- **Evaluation on demand gives what the filter says of the source,** and opens no file unless the filter
refers to the text. -/
theorem gives_holds (limit : Nat) (filter : Filter) :
    Gives limit (filter.holds limit) (fun file => filter.eval (file.source limit))
      (filter.references Attribute.textContent) := by
  induction filter with
  | and left right hleft hright =>
    have hnext : ∀ isHit : Bool, Gives limit (if isHit then right.holds limit else return false)
        (fun file => isHit && right.eval (file.source limit)) (right.references Attribute.textContent) := by
      intro isHit
      cases isHit with
      | false => exact gives_pure limit false _
      | true => exact hright
    exact hleft.bind hnext
  | or left right hleft hright =>
    have hnext : ∀ isHit : Bool, Gives limit (if isHit then return true else right.holds limit)
        (fun file => isHit || right.eval (file.source limit)) (right.references Attribute.textContent) := by
      intro isHit
      cases isHit with
      | false => exact hright
      | true => exact gives_pure limit true _
    exact hleft.bind hnext
  | not inner ih =>
    have hnot := ih.bind fun isHit => gives_pure limit (!isHit) false
    rwa [Bool.or_false] at hnot
  | compare c =>
    have hcompare := (gives_attribute? limit c.name).bind fun value? =>
      gives_pure limit (c.eval fun _ => value?) false
    rwa [Bool.or_false] at hcompare

/-- Selecting on demand gives the files on which the filter holds. -/
theorem select_eq (limit : Nat) (filter : Filter) (files : List FoundFile) :
    (filter.select limit files).1 = files.filter (fun file => filter.eval (file.source limit)) ∧
      (filter.references Attribute.textContent = false → (filter.select limit files).2 = []) := by
  induction files with
  | nil => exact ⟨rfl, fun _ => rfl⟩
  | cons file files ih =>
    have hkept : (Candidate.mk file none).Kept limit := fun _ heq => by cases heq
    obtain ⟨after, opened, hholds, -, -, hopened⟩ := filter.gives_holds limit ⟨file, none⟩ [] hkept
    rw [select, hholds, List.filter_cons, ← ih.1]
    exact ⟨rfl, fun href => List.append_eq_nil_iff.2 ⟨hopened href, ih.2 href⟩⟩

end Query.Filter

/-! ## Engines -/

namespace Engine

theorem ofFiles_eq_selecting (t : FileTree) (limit : Nat) (clock : Instant) :
    ofFiles t limit clock = selecting t clock fun filter files =>
      files.filter fun file => filter.eval (file.source (neededLimit limit filter)) := rfl

theorem onDemand_eq (t : FileTree) (limit : Nat) (clock : Instant) :
    onDemand t limit clock = ofFiles t limit clock := by
  rw [onDemand, ofFiles_eq_selecting]
  congr 1
  funext filter files
  exact (filter.select_eq (neededLimit limit filter) files).1

theorem ofFiles_eq_readingAll (t : FileTree) (limit : Nat) (clock : Instant) :
    ofFiles t limit clock = readingAll t limit clock := by
  rw [readingAll, ofFiles_eq_selecting]
  congr 1
  funext filter files
  exact List.filter_congr fun file _ => file.eval_neededLimit limit filter

/-- **Reading no text cannot be noticed.** -/
theorem unread_text :
    (∀ (filter : Query.Filter) (name : String) (source other : Query.Source),
      filter.references name = false → (∀ n, n ≠ name → source n = other n) →
        filter.eval source = filter.eval other) ∧
    ∀ (t : FileTree) (limit : Nat) (clock : Instant),
      onDemand t limit clock = ofFiles t limit clock ∧
        ofFiles t limit clock = readingAll t limit clock ∧
        ∀ (filter : Query.Filter) (files : List FoundFile),
          filter.references Attribute.textContent = false →
            (filter.select (neededLimit limit filter) files).2 = [] := by
  refine ⟨fun filter name source other href hsame => ?_, fun t limit clock =>
    ⟨onDemand_eq t limit clock, ofFiles_eq_readingAll t limit clock, fun filter files =>
      (filter.select_eq _ files).2⟩⟩
  refine Query.Filter.eval_congr fun n hn => hsame n fun heq => ?_
  rw [heq, href] at hn
  cases hn

/-- A text file of two bytes, and a filter on sizes. -/
def twoBytes : FoundFile := ⟨Path.ofText "/a.txt", [104, 105], ⟨⟨1, 0⟩, none⟩⟩

def bySize : Query.Filter := .compare ⟨Attribute.fileSize, .gt, .number (.ofInt 1)⟩

theorem unread_text_bySize :
    bySize.references Attribute.textContent = false ∧
      twoBytes.source 16 Attribute.textContent = some (.string "hi") ∧
      twoBytes.source 0 Attribute.textContent = none ∧
      bySize.eval (twoBytes.source 0) = bySize.eval (twoBytes.source 16) ∧
      onDemand oneFile 16 ⟨0, 0⟩ = readingAll oneFile 16 ⟨0, 0⟩ ∧
      (bySize.select (neededLimit 16 bySize) [twoBytes]).2 = [] := by
  have href : bySize.references Attribute.textContent = false := by decide
  have hsame : ∀ n, n ≠ Attribute.textContent → twoBytes.source 0 n = twoBytes.source 16 n := by
    intro n hn
    rw [FoundFile.source, FoundFile.source, if_neg hn, if_neg hn]
  obtain ⟨heval, hengines⟩ := unread_text
  obtain ⟨hdemand, hall, hopened⟩ := hengines oneFile 16 ⟨0, 0⟩
  exact ⟨href, rfl, rfl, heval bySize _ _ _ href hsame, hdemand.trans hall, hopened bySize _ href⟩

end Engine

end MetadataSearch
