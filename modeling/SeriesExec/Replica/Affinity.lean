import SeriesExec.Range.Text
import SeriesExec.Replica.Digest
import SeriesExec.Task.Basic

/-!
# Affinity — which member of a group serves a task

Writes go to the master.  The reads of one session all go to the same member of a group, so that a
session sees its own writes once they have arrived there; reads without a session are spread by
the range they read from.  This file defines:

* `Affinity.chooseBy` — the member that serves a task, if reads are spread by some hash;
* `Affinity.choose` — the same for the digest, by which reads are spread in fact;
* `Affinity.unitFor` — the unit for a storage task.
-/

namespace SeriesExec
namespace Affinity

/-- The bytes of a word, the lowest first. -/
def wordBytes (w : UInt64) : List UInt8 :=
  (List.range 8).map fun i => (w >>> UInt64.ofNat (8 * i)).toUInt8

/-- What reads are spread by. -/
def seed (range : PathRange) : Option UInt64 → List UInt8
  | some session => wordBytes session
  | none => range.render.toUTF8.toList

/-- The member of a list at the place that the hash gives, with the names in ascending order. -/
def pick (ids : List UnitId) (hash : UInt64) (default : UnitId) : UnitId :=
  let sorted := ids.mergeSort fun a b => decide (a ≤ b)
  -- A group has at least a master, so there is a unit at this place.
  sorted[hash.toNat % sorted.length]?.getD default

/-- The unit that serves a task on a fragment, if reads are spread by this hash. -/
def chooseBy (hash : List UInt8 → UInt64) (fragment : Fragment) (isWrite : Bool)
    (session : Option UInt64) : UnitId :=
  if isWrite || fragment.master.replicas.isEmpty then fragment.masterId
  else pick fragment.master.groupIds (hash (seed fragment.range session)) fragment.masterId

/-- The unit that serves a task on a fragment. -/
def choose : Fragment → Bool → Option UInt64 → UnitId :=
  chooseBy digest

/-- The unit for a storage task, if reads are spread by this hash. -/
def unitFor (hash : List UInt8 → UInt64) (x : Task) (s : StorageShape) : UnitId :=
  chooseBy hash s.fragment x.isWrite s.session

end Affinity
end SeriesExec
