/-!
# Instants and spans

An `Instant` counts seconds from the start of 1970 and nanoseconds within the second; nanoseconds from
`10 ^ 9` up mark a leap second. A `Span` is a length of time. A record that has ended lasts at least one
nanosecond, whatever the clock did in between: `elapsed`.
-/

namespace Handover

def billion : Nat := 1000000000

structure Instant where
  second : Int
  nanos : Nat := 0
  deriving DecidableEq, Repr, Inhabited

structure Span where
  seconds : Nat := 0
  nanos : Nat := 0
  deriving DecidableEq, Repr, Inhabited

namespace Span

def ofNanos (n : Nat) : Span := ⟨n / billion, n % billion⟩

def toNanos (s : Span) : Nat := s.seconds * billion + s.nanos

end Span

namespace Instant

def before (a b : Instant) : Bool := a.second < b.second || (a.second == b.second && a.nanos < b.nanos)

def later (a b : Instant) : Instant := if before a b then b else a

def daySeconds : Nat := 86400

def secondOfDay (t : Instant) : Int := t.second.emod daySeconds

/-- Nanoseconds from `start` to `stop`. A leap second counts as a second of its own only for an instant
that comes after it on the clock face. -/
def nanosBetween (start stop : Instant) : Int :=
  let leap : Int :=
    if start.secondOfDay < stop.secondOfDay ∧ billion ≤ start.nanos then 1
    else if stop.secondOfDay < start.secondOfDay ∧ billion ≤ stop.nanos then -1
    else 0
  (stop.second - start.second + leap) * billion + ((stop.nanos : Int) - start.nanos)

def tick (t : Instant) : Instant :=
  if t.nanos + 1 = billion ∨ t.nanos + 1 = 2 * billion then ⟨t.second + 1, 0⟩
  else ⟨t.second, t.nanos + 1⟩

/-- The span from `start` to `stop`, never shorter than a nanosecond. -/
def elapsed (start stop : Instant) : Span :=
  Span.ofNanos (max 1 (nanosBetween start stop).toNat)

/-- Time passed since `t`, nothing if `now` is not later. -/
def age (t now : Instant) : Nat := (nanosBetween t now).toNat

end Instant
end Handover
