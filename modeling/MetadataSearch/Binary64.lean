/-!
# Doubles

A double is a NaN, an infinity, or a sign with a *rank*: the place of its magnitude on the ladder
of the finite magnitudes, from `0` at rank `0` upwards. Ranks turn order into order of naturals,
and every finite magnitude is a whole number of *units* of `2 ^ -1074`, so that all arithmetic here
is exact arithmetic of naturals followed by one rounding.

- `Binary64.ofRatio` rounds an exact fraction to the nearest double, ties to the even significand.
- `Binary64.compare?` orders doubles; a NaN is not comparable.
- `Binary64.ofBits`, `Binary64.toBits` are the 64-bit interchange form, with one NaN.
-/

namespace MetadataSearch

/-- The number of finite magnitudes: 2047 exponents of `2 ^ 52` magnitudes each. -/
def finiteRanks : Nat := 0x7FF0000000000000

/-- A double by kind. The sign of a zero counts; all NaNs are one. -/
inductive Binary64 where
  | nan
  | infinite (negative : Bool)
  | finite (negative : Bool) (rank : Fin finiteRanks)
  deriving DecidableEq

namespace Binary64

/-- A unit is `1 / unitsPerOne`, the least positive double. -/
def unitsPerOne : Nat := Nat.pow 2 1074

/-- The number of magnitudes with one exponent. -/
def ranksPerExponent : Nat := 0x10000000000000

/-- The magnitude at a rank, in units. -/
def units (rank : Nat) : Nat :=
  if rank < ranksPerExponent then rank
  else (rank % ranksPerExponent + ranksPerExponent) * Nat.pow 2 (rank / ranksPerExponent - 1)

/-- The quotient rounded to the nearest natural, a half going to the even one. -/
def roundHalfEven (num den : Nat) : Nat :=
  let low := num / den
  let twice := 2 * (num % den)
  if twice < den then low
  else if den < twice then low + 1
  else low + low % 2

/-- The rank nearest to `num / den`, unbounded above. The grid at a magnitude of `q` units keeps the
53 leading bits of `q`; rounding up to the next power of two moves to the next grid by itself. -/
def nearestRank (num den : Nat) : Nat :=
  let scaled := num * unitsPerOne
  let shift := Nat.log2 (scaled / den) - 52
  shift * ranksPerExponent + roundHalfEven scaled (den * Nat.pow 2 shift)

/-- A rank beyond the finite ones stands for infinity. -/
def ofRank (negative : Bool) (rank : Nat) : Binary64 :=
  if h : rank < finiteRanks then .finite negative ⟨rank, h⟩ else .infinite negative

/-- The double nearest to `num / den`, for `den` not zero. -/
def ofRatio (negative : Bool) (num den : Nat) : Binary64 :=
  ofRank negative (nearestRank num den)

/-- The double nearest to an integer. -/
def ofInt (n : Int) : Binary64 :=
  ofRatio (decide (n < 0)) n.natAbs 1

def zero : Binary64 := .finite false ⟨0, by decide⟩

def isFinite : Binary64 → Bool
  | .finite .. => true
  | _ => false

def isZero : Binary64 → Bool
  | .finite _ rank => rank.val == 0
  | _ => false

/-- The signed place in the order of all doubles but NaN; the two zeros share it. -/
def place? : Binary64 → Option Int
  | .nan => none
  | .infinite negative => some (if negative then -finiteRanks else finiteRanks)
  | .finite negative rank => some (if negative then -rank.val else rank.val)

/-- The order of doubles; `none` if one of them is a NaN. -/
def compare? (x y : Binary64) : Option Ordering := do
  let p ← x.place?
  let q ← y.place?
  return compare p q

/-- Whether the value is a finite whole number. -/
def isWhole : Binary64 → Bool
  | .finite _ rank => units rank % unitsPerOne == 0
  | _ => false

/-- The value cut to its whole part, towards zero; `none` unless finite. -/
def truncate? : Binary64 → Option Int
  | .finite negative rank =>
    let n : Int := (units rank / unitsPerOne : Nat)
    some (if negative then -n else n)
  | _ => none

/-! ## Products and quotients by a magnitude

Both round once; they are used on finite values only, and an overflow is an infinity. -/

/-- The product of a double and the positive double of a rank. -/
def mulRank (x : Binary64) (rank : Nat) : Binary64 :=
  match x with
  | .finite negative r => ofRatio negative (units r * units rank) (unitsPerOne * unitsPerOne)
  | other => other

/-- The quotient of a double by the positive double of a rank. -/
def divRank (x : Binary64) (rank : Nat) : Binary64 :=
  match x with
  | .finite negative r => ofRatio negative (units r) (units rank)
  | other => other

/-! ## Interchange bits -/

/-- The place value of the sign. -/
def signBit : Nat := 0x8000000000000000

/-- The fraction of the NaN. -/
def quietBit : Nat := 0x8000000000000

def ofBits (bits : Nat) : Binary64 :=
  let negative := bits / signBit % 2 == 1
  let rank := bits % signBit
  if h : rank < finiteRanks then .finite negative ⟨rank, h⟩
  else if rank == finiteRanks then .infinite negative
  else .nan

def toBits : Binary64 → Nat
  | .nan => finiteRanks + quietBit
  | .infinite negative => (if negative then signBit else 0) + finiteRanks
  | .finite negative rank => (if negative then signBit else 0) + rank

end Binary64

end MetadataSearch
