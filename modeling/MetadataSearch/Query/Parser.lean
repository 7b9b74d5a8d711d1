import MetadataSearch.Query.Lexer

/-!
# Reading queries

The grammar, over tokens:

    expr    = and, any number of `||` and
    and     = unary, any number of `&&` unary
    unary   = `!` unary, or primary
    primary = `(` expr `)`, or NAME COMPARATOR VALUE

Both connectives associate to the left. `!` and `(` may be nested to `nestingLimit`; that bound is
the measure on which the reading of a unary recurs. A reader returns a `Parsed`, which carries the
proof that tokens were used up; the loops over connectives recur on the tokens left.

An error stands at the token that does not fit, or at the end of the query.
-/

namespace MetadataSearch.Query

/-- A filter read from the front of a token list, and the tokens left, which are fewer. -/
structure Parsed (tokens : List Lexeme) where
  filter : Filter
  rest : List Lexeme
  shorter : rest.length < tokens.length

/-- A reader of a part of the grammar. -/
abbrev PartReader := (tokens : List Lexeme) → Except Error (Parsed tokens)

/-- The offset of the next token in a query of `size` bytes. -/
def offsetOf (size : Nat) : List Lexeme → Nat
  | [] => size
  | l :: _ => offsetAt size l.start

/-! ## Chains of one connective -/

/-- Reads on after `left` while the connective follows. -/
def chainFrom (isConnective : Token → Bool) (join : Filter → Filter → Filter) (part : PartReader)
    (left : Filter) (tokens : List Lexeme) :
    Except Error { r : Filter × List Lexeme // r.2.length ≤ tokens.length } :=
  match tokens with
  | [] => .ok ⟨(left, []), Nat.le_refl _⟩
  | l :: more =>
    if isConnective l.token then do
      let p ← part more
      let r ← chainFrom isConnective join part (join left p.filter) p.rest
      return ⟨r.1, by have := p.shorter; have := r.2; simp only [List.length_cons]; omega⟩
    else .ok ⟨(left, l :: more), Nat.le_refl _⟩
termination_by tokens.length
decreasing_by have := p.shorter; simp only [List.length_cons]; omega

/-- One part, then any number of further ones after the connective. -/
def chain (isConnective : Token → Bool) (join : Filter → Filter → Filter) (part : PartReader) :
    PartReader := fun tokens => do
  let p ← part tokens
  let r ← chainFrom isConnective join part p.filter p.rest
  return ⟨r.1.1, r.1.2, Nat.lt_of_le_of_lt r.2 p.shorter⟩

def Token.isAnd : Token → Bool
  | .and => true
  | _ => false

def Token.isOr : Token → Bool
  | .or => true
  | _ => false

/-- An expression over a reader of unaries. -/
def expression (unary : PartReader) : PartReader :=
  chain Token.isOr .or (chain Token.isAnd .and unary)

/-! ## Primaries -/

/-- A comparison after its attribute. -/
def comparison (size : Nat) (name : String) (first : Lexeme) (tokens : List Lexeme) :
    Except Error (Parsed (first :: tokens)) :=
  match tokens with
  | ⟨.comparator op, _⟩ :: ⟨.value operand, _⟩ :: rest =>
    .ok ⟨.compare ⟨name, op, operand⟩, rest, by simp only [List.length_cons]; omega⟩
  | ⟨.comparator _, _⟩ :: rest => .error ⟨.expectedValue, offsetOf size rest⟩
  | rest => .error ⟨.expectedComparator, offsetOf size rest⟩

/-- A group after its opening parenthesis. -/
def group (size : Nat) (unary : PartReader) (first : Lexeme) (tokens : List Lexeme) :
    Except Error (Parsed (first :: tokens)) := do
  let p ← expression unary tokens
  match h : p.rest with
  | ⟨.closeGroup, _⟩ :: rest =>
    return ⟨p.filter, rest, by
      have := p.shorter; simp only [h, List.length_cons] at this ⊢; omega⟩
  | rest => .error ⟨.expectedClose, offsetOf size rest⟩

/-- A negation after its sign. -/
def negation (unary : PartReader) (first : Lexeme) (tokens : List Lexeme) :
    Except Error (Parsed (first :: tokens)) := do
  let p ← unary tokens
  return ⟨.not p.filter, p.rest, Nat.lt_succ_of_lt p.shorter⟩

/-- A unary in which `!` and `(` may still be nested `depth` times. -/
def unary (size : Nat) : (depth : Nat) → PartReader
  | 0, tokens =>
    match tokens with
    | [] => .error ⟨.endOfQuery, size⟩
    | l :: rest =>
      match l.token with
      | .not | .openGroup => .error ⟨.nestedTooDeeply, offsetOf size rest⟩
      | .name name => comparison size name l rest
      | _ => .error ⟨.expectedPrimary, offsetAt size l.start⟩
  | depth + 1, tokens =>
    match tokens with
    | [] => .error ⟨.endOfQuery, size⟩
    | l :: rest =>
      match l.token with
      | .not => negation (unary size depth) l rest
      | .openGroup => group size (unary size depth) l rest
      | .name name => comparison size name l rest
      | _ => .error ⟨.expectedPrimary, offsetAt size l.start⟩

/-- The deepest nesting of `!` and `(`. -/
def nestingLimit : Nat := 256

/-- The filter of a list of tokens, all of which it takes. -/
def parseTokens (size : Nat) (tokens : List Lexeme) : Except Error Filter := do
  let p ← expression (unary size nestingLimit) tokens
  match p.rest with
  | [] => return p.filter
  | l :: _ => .error ⟨.trailingInput, offsetAt size l.start⟩

/-- The filter of a query, with the clock at `now`. -/
def parse (now : Instant) (query : String) : Except Error Filter := do
  let tokens ← lex now query.toList
  parseTokens (Text.byteSize query.toList) tokens

end MetadataSearch.Query
