/-!
# Key intervals — half-open stretches of time

The rows of a fragment have keys in an interval `[start, stop)` of signed words.  This file defines
`KeyInterval`, the interval `KeyInterval.all` of every key, `KeyInterval.overlaps`, and the order
of intervals by start, then by stop.
-/

namespace SeriesExec

/-- The keys from `start` up to, but not including, `stop`. -/
structure KeyInterval where
  start : Int
  stop : Int
  deriving DecidableEq, Repr, Inhabited

namespace KeyInterval

/-- The interval between the smallest and the largest signed word. -/
def all : KeyInterval := ⟨-9223372036854775808, 9223372036854775807⟩

/-- Whether each starts before the other stops. -/
def overlaps (a b : KeyInterval) : Bool :=
  decide (a.start < b.stop) && decide (b.start < a.stop)

instance : Ord KeyInterval where
  compare a b := (compare a.start b.start).then (compare a.stop b.stop)

end KeyInterval
end SeriesExec
