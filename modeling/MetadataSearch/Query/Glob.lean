/-!
# Globs

A glob is a pattern text in which a star stands for any characters, a question mark for exactly one,
and a set in brackets for one of its members.

- `Glob.read` reads the part of that notation that is needed here: single stars and sets with one
  member. Two stars in a row, which have a meaning of their own, and any other bracket are faults.
- `Glob.reach` says for every tail of a value whether the tokens match it. It works on the tokens from
  their end, so that its cost is the product of the two lengths.
-/

namespace MetadataSearch.Glob

inductive Token where
  | char (c : Char)
  | anyChar
  | anySequence
  /-- A set with this one member. -/
  | only (member : Char)
  deriving DecidableEq

/-- Why a text is no glob. -/
inductive Fault where
  | adjacentStars
  | openSet
  deriving DecidableEq

def Fault.text : Fault → String
  | .adjacentStars => "wildcards are either regular `*` or recursive `**`"
  | .openSet => "invalid range pattern"

/-- The tokens of a glob. A set that starts with an exclamation mark would be a negated one. -/
def read : List Char → Except Fault (List Token)
  | [] => .ok []
  | '*' :: '*' :: _ => .error .adjacentStars
  | '*' :: rest => (read rest).map (.anySequence :: ·)
  | '?' :: rest => (read rest).map (.anyChar :: ·)
  | '[' :: member :: ']' :: rest =>
    if member = '!' then .error .openSet else (read rest).map (.only member :: ·)
  | '[' :: _ => .error .openSet
  | c :: rest => (read rest).map (.char c :: ·)

/-! ## Matching -/

/-- Whether a token that stands for one character stands for this one. -/
def Token.takes (c : Char) : Token → Bool
  | .char d => c == d
  | .only d => c == d
  | .anyChar => true
  | .anySequence => false

/-- For the whole value and each of its tails down to the empty one: whether some tail of it is
marked. -/
def anyLater (marks : List Bool) : List Bool :=
  marks.foldr (fun mark later => (mark || later.headD false) :: later) []

/-- For the whole value and each of its tails down to the empty one: whether the tokens match it. -/
def reach (value : List Char) : List Token → List Bool
  | [] => value.map (fun _ => false) ++ [true]
  | token :: tokens =>
    let marks := reach value tokens
    if token = .anySequence then anyLater marks
    else List.zipWith (fun c mark => token.takes c && mark) value marks.tail ++ [false]

def accepts (tokens : List Token) (value : List Char) : Bool := (reach value tokens).headD false

end MetadataSearch.Glob
