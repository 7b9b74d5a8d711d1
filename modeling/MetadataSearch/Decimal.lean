import MetadataSearch.Binary64

/-!
# Decimal forms of doubles

A `Decimal` is a coefficient times a power of ten.

- `Binary64.ofDecimal` is the double nearest to a decimal.
- `Decimal.shortest` is the decimal with the fewest digits that is nearest to a given double among
  those that round to it: for 1, 2, … digits it tries the two neighbours of the value on the grid
  of that many digits, and the first grid with a hit wins.
- `Decimal.Layout` says how a decimal is spelled: which exponents of the leading digit are written
  positionally. `Decimal.Layout.write` spells it.
- `Binary64.scaled?` multiplies or divides by the double nearest to a power of ten, rounding once
  more. It is quicker than `ofDecimal` and may miss the nearest double by one rank.
-/

namespace MetadataSearch

/-- The number `coefficient * 10 ^ exponent`. -/
structure Decimal where
  coefficient : Nat
  exponent : Int
  deriving DecidableEq

namespace Decimal

/-- The number of decimal digits; one for zero. -/
def digitCount (n : Nat) : Nat := (Nat.toDigits 10 n).length

/-- Trailing zeros of the coefficient move into the exponent. At most `steps` of them move. -/
def strip : (steps : Nat) → Decimal → Decimal
  | 0, d => d
  | steps + 1, d =>
    if d.coefficient % 10 == 0 && d.coefficient != 0 then
      strip steps ⟨d.coefficient / 10, d.exponent + 1⟩
    else d

/-- The open or closed interval of numbers that round to one double, with the value itself. The
three numbers are counted in halves of `Binary64.units`. -/
structure Rounding where
  low : Nat
  value : Nat
  high : Nat
  closed : Bool

/-- The interval around a finite positive rank: its ends lie halfway to the neighbours and belong
to it when the significand is even. -/
def Rounding.ofRank (rank : Nat) : Rounding where
  low := Binary64.units (rank - 1) + Binary64.units rank
  value := 2 * Binary64.units rank
  high := Binary64.units rank + Binary64.units (rank + 1)
  closed := rank % 2 == 0

/-- Whether `num / den` halves of a unit lie in the interval. -/
def Rounding.contains (r : Rounding) (num den : Nat) : Bool :=
  if r.closed then r.low * den ≤ num && num ≤ r.high * den
  else r.low * den < num && num < r.high * den

/-- A half of a unit is one part in this many. -/
def halvesPerOne : Nat := 2 * Binary64.unitsPerOne

/-- `10 ^ exponent` as a numerator and a denominator. -/
def tenPower (exponent : Int) : Nat × Nat :=
  if exponent < 0 then (1, Nat.pow 10 exponent.natAbs) else (Nat.pow 10 exponent.natAbs, 1)

/-- The exponent of the leading decimal digit of a positive value in halves of a unit. Every
positive double exceeds `10 ^ -400`, so the scaled quotient is not zero. -/
def leadingExponent (value : Nat) : Int :=
  (digitCount (value * Nat.pow 10 400 / halvesPerOne) : Int) - 401

/-- The decimal on the grid of `10 ^ exponent` that is nearest to the value among its two
neighbours there, if that one rounds to the double. -/
def onGrid? (r : Rounding) (exponent : Int) : Option Decimal :=
  let (num, den) := tenPower exponent
  let step := halvesPerOne * num
  let below := r.value * den / step
  let hit (c : Nat) : Bool := r.contains (c * step) den
  let rest := 2 * (r.value * den % step)
  let nearer := if rest < step then below else if step < rest then below + 1 else below + below % 2
  let other := if nearer == below then below + 1 else below
  if hit nearer then some ⟨nearer, exponent⟩
  else if hit other then some ⟨other, exponent⟩
  else none

/-- The shortest decimal that rounds to the positive finite double of a rank. Seventeen digits
always suffice. -/
def shortest (rank : Nat) : Decimal :=
  let r := Rounding.ofRank rank
  let leading := leadingExponent r.value
  let found := (List.range 17).findSome? fun (n : Nat) => onGrid? r (leading - (n : Int))
  strip 18 (found.getD ⟨r.value, 0⟩)

/-- How decimals are spelled: positionally while the exponent of the leading digit lies between
`least` and `greatest`, otherwise with a signed exponent after an `e`. A positional form always has
a digit on both sides of its point. -/
structure Layout where
  least : Int
  greatest : Int

/-- The spelling of a decimal under a layout. -/
def Layout.write (layout : Layout) (d : Decimal) : List Char :=
  let digits := Nat.toDigits 10 d.coefficient
  let leading := d.exponent + digits.length - 1
  if layout.least ≤ leading && leading ≤ layout.greatest then
    if 0 ≤ d.exponent then
      digits ++ List.replicate d.exponent.toNat '0' ++ ['.', '0']
    else if 0 ≤ leading then
      digits.take (leading.toNat + 1) ++ '.' :: digits.drop (leading.toNat + 1)
    else
      '0' :: '.' :: List.replicate (-leading - 1).toNat '0' ++ digits
  else
    let fraction := if digits.length == 1 then [] else '.' :: digits.drop 1
    digits.take 1 ++ fraction ++ 'e' :: (if leading < 0 then '-' else '+') ::
      Nat.toDigits 10 leading.natAbs

end Decimal

namespace Binary64

/-- The spelling of a finite double; `none` for the others. -/
def write? (layout : Decimal.Layout) : Binary64 → Option (List Char)
  | .finite negative rank =>
    let magnitude :=
      if rank.val == 0 then layout.write ⟨0, 0⟩ else layout.write (Decimal.shortest rank)
    some (if negative then '-' :: magnitude else magnitude)
  | _ => none

/-- The double nearest to a signed decimal. Magnitudes far outside the range of doubles are
recognised by their leading exponent, before any power is taken. -/
def ofDecimal (negative : Bool) (d : Decimal) : Binary64 :=
  let leading := d.exponent + Decimal.digitCount d.coefficient - 1
  if d.coefficient == 0 || leading < -400 then ofRank negative 0
  else if 400 < leading then .infinite negative
  else
    let (num, den) := Decimal.tenPower d.exponent
    ofRatio negative (d.coefficient * num) den

/-- Division by `10 ^ n`, at most `10 ^ 308` at a time. -/
def divTens (x : Binary64) (n : Nat) : Binary64 :=
  if n ≤ 308 then x.divRank (nearestRank (Nat.pow 10 n) 1)
  else if x.isZero then x
  else divTens (x.divRank (nearestRank (Nat.pow 10 308) 1)) (n - 308)
termination_by n

/-- The signed whole number `coefficient`, rounded, times `10 ^ exponent`, rounded again; `none`
when that is too large for a double. -/
def scaled? (negative : Bool) (coefficient : Nat) (exponent : Int) : Option Binary64 :=
  let x := ofRatio negative coefficient 1
  if exponent < 0 then some (x.divTens exponent.natAbs)
  else if x.isZero then some x
  else if 308 < exponent then none
  else
    let y := x.mulRank (nearestRank (Nat.pow 10 exponent.natAbs) 1)
    if y.isFinite then some y else none

end Binary64

end MetadataSearch
