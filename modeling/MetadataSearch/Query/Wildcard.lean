import MetadataSearch.Query.Glob
import MetadataSearch.Text.Occurrence

/-!
# Wildcards

In a pattern a star stands for any characters, a question mark for exactly one, and every other
character for itself.

- `Wildcard.globOf` spells a pattern as a glob: stars that follow a star are left out, and a bracket
  stands in a set of its own.
- `Wildcard.Matcher` has cheaper ways for patterns without wildcards and for plain text between
  stars; `Wildcard.Matcher.compile` picks the way.
-/

namespace MetadataSearch.Wildcard

def isWild (c : Char) : Bool := c == '*' || c == '?'

/-- The glob of what is left of a pattern, after a star or not. -/
def globOf (afterStar : Bool) : List Char → List Char
  | [] => []
  | c :: rest =>
    if c = '*' then
      if afterStar then globOf true rest else '*' :: globOf true rest
    else if c = '[' ∨ c = ']' then '[' :: c :: ']' :: globOf false rest
    else c :: globOf false rest

inductive Matcher where
  /-- No wildcard: the value is the pattern. -/
  | exact
  /-- Stars at both ends only: the value holds what stands between them. -/
  | contains (needle : List Char)
  | glob (tokens : List Glob.Token)
  deriving DecidableEq

/-- The pattern without the stars at its two ends. -/
def trimStars (pattern : List Char) : List Char :=
  ((pattern.dropWhile (· == '*')).reverse.dropWhile (· == '*')).reverse

/-- The cheapest way to match a pattern. -/
def Matcher.compile (pattern : List Char) : Except Glob.Fault Matcher :=
  if !pattern.any isWild then .ok .exact
  else if 2 ≤ pattern.length && pattern.head? == some '*' && pattern.getLast? == some '*' &&
      !(trimStars pattern).any isWild then
    .ok (.contains (trimStars pattern))
  else (Glob.read (globOf false pattern)).map .glob

/-- Whether the matcher of a pattern accepts a value. -/
def Matcher.accepts (pattern value : List Char) : Matcher → Bool
  | .exact => value == pattern
  | .contains needle => Text.occursIn needle value
  | .glob tokens => Glob.accepts tokens value

end MetadataSearch.Wildcard
