/-!
# Duration — a length of time

A duration has nanosecond precision and at most `2 ^ 64` seconds.  This file defines:

* `Duration` — a bounded number of nanoseconds, compared as such;
* `Duration.ofMillis`, `ofSeconds`, `ofMinutes?`, `ofParts?` — the ways to make one; the last two
  refuse a length that is too large;
* `Duration.add?` — the sum, if it is not too large;
* `Duration.millis` — whole milliseconds, as a word that wraps.
-/

namespace SeriesExec

/-- A length of time in nanoseconds; its whole seconds fit a word. -/
structure Duration where
  nanos : Nat
  bounded : nanos < UInt64.size * 1000000000 := by decide
  deriving DecidableEq, Repr

namespace Duration

instance : Inhabited Duration := ⟨⟨0, by decide⟩⟩

/-- The empty length of time. -/
def zero : Duration := ⟨0, by decide⟩

/-- The length with this number of nanoseconds, if its seconds fit a word. -/
def ofNanos? (n : Nat) : Option Duration :=
  if h : n < UInt64.size * 1000000000 then some ⟨n, h⟩ else none

def ofMillis (m : UInt64) : Duration :=
  ⟨m.toNat * 1000000, by have := m.toNat_lt_size; unfold UInt64.size at *; omega⟩

def ofSeconds (s : UInt64) : Duration :=
  ⟨s.toNat * 1000000000, by have := s.toNat_lt_size; unfold UInt64.size at *; omega⟩

/-- A number of minutes; too many of them make no duration. -/
def ofMinutes? (m : UInt64) : Option Duration :=
  ofNanos? (m.toNat * 60 * 1000000000)

/-- Seconds and nanoseconds; nanoseconds beyond a second are carried over. -/
def ofParts? (seconds : UInt64) (nanos : UInt32) : Option Duration :=
  ofNanos? (seconds.toNat * 1000000000 + nanos.toNat)

def add? (a b : Duration) : Option Duration :=
  ofNanos? (a.nanos + b.nanos)

def isZero (d : Duration) : Bool :=
  d.nanos == 0

/-- Whole seconds. -/
def seconds (d : Duration) : Nat :=
  d.nanos / 1000000000

/-- The nanoseconds beyond the whole seconds. -/
def subsecond (d : Duration) : Nat :=
  d.nanos % 1000000000

/-- Whole milliseconds.  A length of more than `2 ^ 64` milliseconds wraps around. -/
def millis (d : Duration) : UInt64 :=
  UInt64.ofNat (d.nanos / 1000000)

instance : Ord Duration where
  compare a b := compare a.nanos b.nanos

/-- The longer of two lengths. -/
def max (a b : Duration) : Duration :=
  if a.nanos < b.nanos then b else a

@[simp]
theorem millis_ofMillis (m : UInt64) : (ofMillis m).millis = m := by
  simp [millis, ofMillis]

end Duration
end SeriesExec
