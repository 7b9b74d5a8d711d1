import MetadataSearch.Query.Parser

/-!
# Syntax trees of queries

The grammar, as trees over tokens:

    expr    = and, any number of `||` and
    and     = unary, any number of `&&` unary
    unary   = `!` unary, or primary
    primary = `(` expr `)`, or NAME COMPARATOR VALUE

The trees are a family over `Level`: a level is a unary or a chain of one connective, and the parts of
a chain are trees of the level below, so `&&` binds tighter than `||`. A tree has the list of tokens
that it derives (`tokens`), the filter that it stands for, in which chains associate to the left
(`filter`), and for every primary the number of `!` and `(` around it (`depths`).

**Theorem (`tree_unique`).** No list of tokens has two trees.

The proof compares two trees with something behind each, which must not go on with the trees: a token
that continues one of them would have been taken by it. Then the first tokens of both decide alike.
-/

namespace MetadataSearch.Query

inductive Connective where
  | and
  | or
  deriving DecidableEq

/-- What a tree is a tree of. -/
inductive Level where
  | unary
  | chain (k : Connective)
  deriving DecidableEq

namespace Connective

/-- The parts of a chain. -/
def part : Connective → Level
  | .and => .unary
  | .or => .chain .and

def token : Connective → Token
  | .and => .and
  | .or => .or

def isToken : Connective → Token → Bool
  | .and => Token.isAnd
  | .or => Token.isOr

def join : Connective → Filter → Filter → Filter
  | .and => .and
  | .or => .or

theorem isToken_iff {k : Connective} {t : Token} : k.isToken t = true ↔ t = k.token := by
  cases k <;> cases t <;> simp [isToken, token, Token.isAnd, Token.isOr]

end Connective

namespace Level

/-- Whether a token behind a tree of the level belongs to the tree. -/
def goesOn : Level → Token → Bool
  | .unary, _ => false
  | .chain .and, t => t.isAnd
  | .chain .or, t => t.isAnd || t.isOr

/-- Tokens behind a tree of the level leave it as it is. -/
def Stops (level : Level) (rest : List Token) : Prop := ∀ t ∈ rest.head?, level.goesOn t = false

theorem stops_nil (level : Level) : level.Stops [] := by
  intro t ht
  cases ht

theorem stops_cons {level : Level} {t : Token} {rest : List Token} :
    level.Stops (t :: rest) ↔ level.goesOn t = false := by
  simp [Stops]

theorem stops_closeGroup (level : Level) (rest : List Token) : level.Stops (.closeGroup :: rest) := by
  rw [stops_cons]
  match level with
  | .unary => rfl
  | .chain .and => rfl
  | .chain .or => rfl

theorem stops_part {k : Connective} {rest : List Token} (h : (Level.chain k).Stops rest) :
    k.part.Stops rest := by
  intro t ht
  have hchain := h t ht
  cases k with
  | and => rfl
  | or => exact (Bool.or_eq_false_iff.1 hchain).1

/-- The connective of a chain ends the part before it. -/
theorem stops_token (k : Connective) (rest : List Token) : k.part.Stops (k.token :: rest) := by
  rw [stops_cons]
  cases k <;> rfl

/-- The connective of a chain goes on with the chain. -/
theorem not_stops_token (k : Connective) (rest : List Token) :
    ¬ (Level.chain k).Stops (k.token :: rest) := by
  rw [stops_cons]
  cases k <;> exact Bool.noConfusion

end Level

/-- The syntax trees of a level. -/
inductive Tree : Level → Type where
  | not (inner : Tree .unary) : Tree .unary
  | group (inner : Tree (.chain .or)) : Tree .unary
  | comparison (c : Comparison) : Tree .unary
  | one {k : Connective} (only : Tree k.part) : Tree (.chain k)
  | more {k : Connective} (first : Tree k.part) (others : Tree (.chain k)) : Tree (.chain k)

/-- The trees of whole queries. -/
abbrev Tree.Expr : Type := Tree (.chain .or)

namespace Tree

def tokens : {level : Level} → Tree level → List Token
  | _, .not inner => .not :: inner.tokens
  | _, .group inner => .openGroup :: (inner.tokens ++ [.closeGroup])
  | _, .comparison c => [.name c.name, .comparator c.op, .value c.operand]
  | _, .one only => only.tokens
  | _, .more (k := k) first others => first.tokens ++ k.token :: others.tokens

mutual

/-- The filter of a tree. A chain associates to the left: what follows the first part is joined to it
part by part. -/
def filter : {level : Level} → Tree level → Filter
  | _, .not inner => .not inner.filter
  | _, .group inner => inner.filter
  | _, .comparison c => .compare c
  | _, .one only => only.filter
  | _, .more first others => others.filterAfter first.filter

/-- The filter of a chain whose parts are joined to what stands before it. -/
def filterAfter (before : Filter) : {level : Level} → Tree level → Filter
  | .chain k, .one only => k.join before only.filter
  | .chain k, .more first others => others.filterAfter (k.join before first.filter)
  | .unary, _ => before

end

/-- For every primary, how many `!` and `(` stand around it. -/
def depths : {level : Level} → Tree level → List Nat
  | _, .not inner => inner.depths.map (· + 1)
  | _, .group inner => 0 :: inner.depths.map (· + 1)
  | _, .comparison _ => [0]
  | _, .one only => only.depths
  | _, .more first others => first.depths ++ others.depths

/-! ## One tree -/

theorem eq_of_append_eq : {level : Level} → (e₁ e₂ : Tree level) → {r₁ r₂ : List Token} →
    level.Stops r₁ → level.Stops r₂ → e₁.tokens ++ r₁ = e₂.tokens ++ r₂ → e₁ = e₂ ∧ r₁ = r₂
  | _, .not e₁, .not e₂, r₁, r₂, h₁, h₂, h => by
    obtain ⟨rfl, hrest⟩ := eq_of_append_eq e₁ e₂ h₁ h₂ (List.cons.inj h).2
    exact ⟨rfl, hrest⟩
  | _, .group e₁, .group e₂, r₁, r₂, _, _, h => by
    have hinner : e₁.tokens ++ .closeGroup :: r₁ = e₂.tokens ++ .closeGroup :: r₂ := by
      simpa only [tokens, List.cons_append, List.append_assoc, List.cons.injEq, true_and,
        List.nil_append] using h
    obtain ⟨rfl, hrest⟩ :=
      eq_of_append_eq e₁ e₂ (Level.stops_closeGroup _ _) (Level.stops_closeGroup _ _) hinner
    exact ⟨rfl, (List.cons.inj hrest).2⟩
  | _, .comparison ⟨name₁, op₁, operand₁⟩, .comparison ⟨name₂, op₂, operand₂⟩, r₁, r₂, _, _, h => by
    simp only [tokens, List.cons_append, List.cons.injEq, Token.name.injEq, Token.comparator.injEq,
      Token.value.injEq, List.nil_append] at h
    obtain ⟨rfl, rfl, rfl, hrest⟩ := h
    exact ⟨rfl, hrest⟩
  | _, .not _, .group _, _, _, _, _, h => by cases (List.cons.inj h).1
  | _, .not _, .comparison _, _, _, _, _, h => by cases (List.cons.inj h).1
  | _, .group _, .not _, _, _, _, _, h => by cases (List.cons.inj h).1
  | _, .group _, .comparison _, _, _, _, _, h => by cases (List.cons.inj h).1
  | _, .comparison _, .not _, _, _, _, _, h => by cases (List.cons.inj h).1
  | _, .comparison _, .group _, _, _, _, _, h => by cases (List.cons.inj h).1
  | _, .one (k := k) a, .one b, r₁, r₂, h₁, h₂, h => by
    obtain ⟨rfl, hrest⟩ := eq_of_append_eq a b (Level.stops_part h₁) (Level.stops_part h₂) h
    exact ⟨rfl, hrest⟩
  | _, .one (k := k) a, .more b others, r₁, r₂, h₁, h₂, h => by
    rw [tokens, tokens, List.append_assoc] at h
    obtain ⟨rfl, rfl⟩ := eq_of_append_eq a b (Level.stops_part h₁) (Level.stops_token k _) h
    exact absurd h₁ (Level.not_stops_token k _)
  | _, .more (k := k) a others, .one b, r₁, r₂, h₁, h₂, h => by
    rw [tokens, tokens, List.append_assoc] at h
    obtain ⟨rfl, rfl⟩ := eq_of_append_eq a b (Level.stops_token k _) (Level.stops_part h₂) h
    exact absurd h₂ (Level.not_stops_token k _)
  | _, .more (k := k) a others₁, .more b others₂, r₁, r₂, h₁, h₂, h => by
    rw [tokens, tokens, List.append_assoc, List.append_assoc] at h
    obtain ⟨rfl, hothers⟩ := eq_of_append_eq a b (Level.stops_token k _) (Level.stops_token k _) h
    obtain ⟨rfl, hrest⟩ := eq_of_append_eq others₁ others₂ h₁ h₂ (List.cons.inj hothers).2
    exact ⟨rfl, hrest⟩

/-- **A list of tokens has at most one tree.** -/
theorem tree_unique {level : Level} {e₁ e₂ : Tree level} (h : e₁.tokens = e₂.tokens) : e₁ = e₂ :=
  (eq_of_append_eq e₁ e₂ level.stops_nil level.stops_nil (by rw [h])).1

end Tree

end MetadataSearch.Query
