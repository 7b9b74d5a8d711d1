/-!
# Limits

The number of results in one answer. A request is moved to the nearest allowed limit.
-/

namespace MetadataSearch.Limit

def default : Nat := 100

def greatest : Nat := 1000

/-- The limit of a request. -/
def ofRequest (requested : Option Int64) : Nat :=
  match requested with
  | none => default
  | some n => if n < 1 then 1 else min n.toInt.toNat greatest

theorem ofRequest_none : ofRequest none = 100 := rfl

/-- **A request is moved to the nearest number from 1 to 1000**, at either end of its range. -/
theorem ofRequest_some (n : Int64) : (ofRequest (some n) : Int) = max 1 (min n.toInt 1000) := by
  have hone : n < 1 ↔ n.toInt < 1 := Int64.lt_iff_toInt_lt
  rw [ofRequest, greatest]
  split
  case isTrue h =>
    have hlow := hone.1 h
    omega
  case isFalse h =>
    have hlow := mt hone.2 h
    omega

/-- The first items, as many as the limit allows. -/
def keep {α : Type} (limit : Nat) (items : List α) : List α := items.take limit

end MetadataSearch.Limit
