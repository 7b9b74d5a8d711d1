import MetadataSearch.Calendar
import MetadataSearch.Numeral

/-!
# Instants

An instant is a second since 1970-01-01T00:00:00Z and a count of nanoseconds forward from it. A
count of `10 ^ 9` or more marks a leap second: it names a moment in the second `:60` that follows.

- `Instant.inRange` bounds the instants that arithmetic may reach, from the start of year -262143
  to the end of year 262142.
- `Duration` is a difference of whole seconds whose milliseconds fit into 64 bits; a number of days is
  turned into seconds in 64 bits first.
- `Instant.addSeconds?` moves an instant by a duration and refuses to leave the range of instants.
- `Instant.midnight` is the start of an instant's day.
-/

namespace MetadataSearch

structure Instant where
  seconds : Int
  nanos : Nat
  deriving DecidableEq

namespace Instant

def nanosPerSecond : Nat := 1000000000

def secondsPerDay : Int := 86400

end Instant

/-! ## Durations -/

structure Duration where
  seconds : Int
  fits : -Int64.maxValue.toInt ≤ seconds * 1000 ∧ seconds * 1000 ≤ Int64.maxValue.toInt

namespace Duration

def ofSeconds? (n : Int) : Option Duration :=
  if h : -Int64.maxValue.toInt ≤ n * 1000 ∧ n * 1000 ≤ Int64.maxValue.toInt then some ⟨n, h⟩ else none

def ofDays? (n : Int64) : Option Duration :=
  (int64? (n.toInt * Instant.secondsPerDay)).bind fun seconds => ofSeconds? seconds.toInt

end Duration

namespace Instant

/-! ## The range of instants -/

def leastYear : Int := -262143

def greatestYear : Int := 262142

/-- The first day of the range. -/
def leastDay : Int := Date.dayNumber ⟨leastYear, 1, 1⟩

/-- The last day of the range. -/
def greatestDay : Int := Date.dayNumber ⟨greatestYear, 12, 31⟩

def day (t : Instant) : Int := t.seconds / secondsPerDay

def inRange (t : Instant) : Bool := leastDay ≤ t.day && t.day ≤ greatestDay

/-- The instant itself, if it lies in the range. -/
def checked? (t : Instant) : Option Instant := if t.inRange then some t else none

/-- Earlier seconds come first, and within a second the nanoseconds decide. -/
def compare (s t : Instant) : Ordering :=
  (Ord.compare s.seconds t.seconds).then (Ord.compare s.nanos t.nanos)

def isLeap (t : Instant) : Bool := nanosPerSecond ≤ t.nanos

/-- The instant later by a duration. A leap second is left forwards from the second that carries it
and backwards from the one after. -/
def add? (t : Instant) (d : Duration) : Option Instant :=
  if t.isLeap && d.seconds != 0 then
    checked? ⟨t.seconds + d.seconds + (if d.seconds < 0 then 1 else 0), t.nanos - nanosPerSecond⟩
  else checked? ⟨t.seconds + d.seconds, t.nanos⟩

/-- The instant `n` seconds later, if `n` is a duration. -/
def addSeconds? (t : Instant) (n : Int) : Option Instant := (Duration.ofSeconds? n).bind t.add?

/-- The start of the instant's day in UTC. -/
def midnight (t : Instant) : Instant := ⟨t.day * secondsPerDay, 0⟩

/-- The instant cut to its whole second. -/
def wholeSecond (t : Instant) : Instant := ⟨t.seconds, 0⟩

end Instant

end MetadataSearch
