import MetadataSearch.Query.Wildcard
import MetadataSearch.RawValue
import MetadataSearch.Text.LowerCase

/-!
# Filters

A filter is a Boolean combination of comparisons of attributes with operands. It is evaluated on a
source of attributes, a function from names to raw values.

- `Filter.eval` evaluates a filter. A comparison of a missing attribute is false. On an array a
  comparison holds if it holds of some item, except that `ne` is the negation of `eq` on the whole
  value.
- `Filter.references` tells whether any comparison reads an attribute.

Kinds decide what can be compared: text with text, numbers and numerals with numbers, dates with
times. Anything else is unequal and unordered.
-/

namespace MetadataSearch.Query

/-! ## Operands -/

/-- A text to compare with, in lower case if it folds case. With `anyWord`, equality may also hold of
one word of the value. The matcher is the one of the text. -/
structure TextPattern where
  text : List Char
  foldCase : Bool
  anyWord : Bool
  matcher : Wildcard.Matcher
  compiled : Wildcard.Matcher.compile text = .ok matcher

/-- Why a text and its modifiers are no pattern. -/
inductive PatternFault where
  | unknownModifier (m : Char)
  | invalidWildcard (fault : Glob.Fault)
  deriving DecidableEq

namespace TextPattern

/-- The value as it is compared. -/
def fold (p : TextPattern) (value : List Char) : List Char :=
  if p.foldCase then Text.lowerCase value else value

/-- The pattern of a text and its modifiers: `c` folds case, `w` compares with single words too, `d`
changes nothing. The first modifier that is none of them is a fault. -/
def ofText (text modifiers : List Char) : Except PatternFault TextPattern :=
  match modifiers.find? fun m => !(m == 'c' || m == 'w' || m == 'd') with
  | some m => .error (.unknownModifier m)
  | none =>
    let foldCase := modifiers.contains 'c'
    let text := if foldCase then Text.lowerCase text else text
    match h : Wildcard.Matcher.compile text with
    | .error fault => .error (.invalidWildcard fault)
    | .ok matcher => .ok ⟨text, foldCase, modifiers.contains 'w', matcher, h⟩

/-- Whether the pattern, read with its wildcards, equals the value. -/
def accepts (p : TextPattern) (value : List Char) : Bool :=
  let folded := p.fold value
  p.matcher.accepts p.text folded ||
    (p.anyWord && (Text.words folded).any fun word => p.matcher.accepts p.text word)

/-- The order of a value against the text of the pattern, by code points and without wildcards. -/
def order (p : TextPattern) (value : List Char) : Ordering := compare (p.fold value) p.text

end TextPattern

inductive Operand where
  | text (pattern : TextPattern)
  | number (x : Binary64)
  | time (t : Instant)

inductive Comparator where
  | eq
  | ne
  | lt
  | le
  | gt
  | ge
  deriving DecidableEq

/-- Whether an order satisfies a comparator. -/
def Comparator.holds : Comparator → Ordering → Bool
  | .eq, o => o == .eq
  | .ne, o => o != .eq
  | .lt, o => o == .lt
  | .le, o => o != .gt
  | .gt, o => o == .gt
  | .ge, o => o != .lt

/-- Whether an order, if there is one, satisfies a comparator. -/
def Comparator.holdsOf (op : Comparator) (order : Option Ordering) : Bool :=
  match order with
  | some o => op.holds o
  | none => false

/-! ## Comparisons -/

/-- A comparison of a text with an operand. -/
def satisfiesText (op : Comparator) (text : List Char) : Operand → Bool
  | .text pattern => if op = .eq then pattern.accepts text else op.holds (pattern.order text)
  | .number x => op.holdsOf ((Numeral.readReal? (Text.trim text)).bind (Binary64.compare? · x))
  | .time _ => false

/-- A comparison of a value that is no array with an operand. -/
def satisfiesLeaf (op : Comparator) (operand : Operand) : RawValue → Bool
  | .string s => satisfiesText op s.toList operand
  | .integer n =>
    match operand with
    | .number x => op.holdsOf (Binary64.compare? (Binary64.ofInt n.toInt) x)
    | _ => false
  | .real y =>
    match operand with
    | .number x => op.holdsOf (Binary64.compare? y x)
    | _ => false
  | .date s =>
    match operand with
    | .time t => op.holds (s.compare t)
    | _ => false
  | _ => false

mutual

/-- A comparison of a value with an operand; of an array, some item has to satisfy it. -/
def satisfies (op : Comparator) (operand : Operand) : RawValue → Bool
  | .array items => someSatisfies op operand items
  | v => satisfiesLeaf op operand v

def someSatisfies (op : Comparator) (operand : Operand) : List RawValue → Bool
  | [] => false
  | v :: items => satisfies op operand v || someSatisfies op operand items

end

structure Comparison where
  name : String
  op : Comparator
  operand : Operand

/-- Attributes by name. -/
abbrev Source := String → Option RawValue

def Comparison.eval (c : Comparison) (source : Source) : Bool :=
  match source c.name with
  | none => false
  | some v => if c.op = .ne then !satisfies .eq c.operand v else satisfies c.op c.operand v

/-! ## Filters -/

inductive Filter where
  | and (left right : Filter)
  | or (left right : Filter)
  | not (inner : Filter)
  | compare (c : Comparison)

namespace Filter

def eval (source : Source) : Filter → Bool
  | .and left right => left.eval source && right.eval source
  | .or left right => left.eval source || right.eval source
  | .not inner => !inner.eval source
  | .compare c => c.eval source

/-- Whether any comparison reads the attribute. -/
def references (name : String) : Filter → Bool
  | .and left right => left.references name || right.references name
  | .or left right => left.references name || right.references name
  | .not inner => inner.references name
  | .compare c => c.name == name

end Filter

end MetadataSearch.Query
