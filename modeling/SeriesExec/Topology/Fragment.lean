import SeriesExec.KeyInterval
import SeriesExec.Range.Basic
import SeriesExec.Topology.StorageUnit

/-!
# Fragments — parts of the data with an owner

This file defines `Fragment`, a range of paths and an interval of keys that a replication group
holds.
-/

namespace SeriesExec

/-- The series in `range` at the times in `keys`, held by the group of `master`. -/
structure Fragment where
  range : PathRange
  keys : KeyInterval
  master : StorageUnit
  deriving Inhabited

namespace Fragment

/-- The name of the unit that takes the writes. -/
def masterId (f : Fragment) : UnitId :=
  f.master.masterId

/-- What requests to a fragment are counted under. -/
abbrev Key := PathRange × KeyInterval

def key (f : Fragment) : Key :=
  (f.range, f.keys)

theorem key_eq (f : Fragment) : f.key = (f.range, f.keys) :=
  rfl

/-- Keys are ordered by range, then by interval. -/
instance : Ord Key where
  compare a b := (compare a.1 b.1).then (compare a.2 b.2)

end Fragment
end SeriesExec
