/-!
# Path ranges — sets of series paths

Each fragment of the data owns a range of series paths.  This file defines:

* `PathRange` — an interval of paths, or a path with everything below it;
* `PathRange.contains` — whether a path lies in a range;
* `PathRange.intersects` — whether two ranges share a path;
* the order of ranges, by their bounds.

Paths are compared by code point.  In that order the paths below `p` lie between `p.` and `p/`,
because the slash is the character that follows the dot.
-/

namespace SeriesExec

/-- A set of series paths. -/
inductive PathRange where
  /-- The paths from `start` up to, but not including, `stop`; a missing bound does not bound. -/
  | interval (start stop : Option String)
  /-- The path `root` and every path below it. -/
  | subtree (root : String)
  deriving DecidableEq, Repr, Inhabited

/-- A pair of bounds for paths, the lower one included and the upper one not. -/
structure PathBounds where
  start : Option String
  stop : Option String
  deriving DecidableEq, Repr

namespace PathBounds

/-- Whether a lower bound is below an upper one; a missing bound never is in the way. -/
def opens : Option String → Option String → Bool
  | some s, some e => decide (s < e)
  | _, _ => true

/-- Whether each interval opens before the other ends. -/
def overlap (a b : PathBounds) : Bool :=
  opens a.start b.stop && opens b.start a.stop

/-- Whether a path is within the bounds. -/
def contains (b : PathBounds) (path : String) : Bool :=
  b.start.all (fun s => decide (s ≤ path)) && b.stop.all (fun e => decide (path < e))

/-- Lower bounds by text; the missing one is the lowest. -/
def compareStart : Option String → Option String → Ordering
  | none, none => .eq
  | none, some _ => .lt
  | some _, none => .gt
  | some a, some b => compare a b

/-- Upper bounds by text; the missing one is the highest. -/
def compareStop : Option String → Option String → Ordering
  | none, none => .eq
  | none, some _ => .gt
  | some _, none => .lt
  | some a, some b => compare a b

end PathBounds

namespace PathRange

/-- Every path. -/
def all : PathRange := interval none none

/-- Whether `path` lies properly below `root`. -/
def isBelow (root path : String) : Bool :=
  (root.toList ++ ['.']).isPrefixOf path.toList

def contains : PathRange → String → Bool
  | interval start stop, path => (PathBounds.mk start stop).contains path
  | subtree root, path => path == root || isBelow root path

/-- The bounds of the paths properly below `root`. -/
def below (root : String) : PathBounds :=
  ⟨some (root ++ "."), some (root ++ "/")⟩

/-- The smallest interval around a range. -/
def bounds : PathRange → PathBounds
  | interval start stop => ⟨start, stop⟩
  | subtree root => ⟨some root, some (root ++ "/")⟩

/-- Whether the bounds meet the path `root` or the paths below it. -/
def meetsSubtree (b : PathBounds) (root : String) : Bool :=
  b.contains root || b.overlap (below root)

def intersects : PathRange → PathRange → Bool
  | subtree a, subtree b => (subtree a).contains b || (subtree b).contains a
  | subtree root, interval start stop => meetsSubtree ⟨start, stop⟩ root
  | interval start stop, subtree root => meetsSubtree ⟨start, stop⟩ root
  | interval a b, interval c d => (PathBounds.mk a b).overlap ⟨c, d⟩

/-- Whether a range is a subtree: of two ranges with the same bounds the interval comes first. -/
def isSubtree : PathRange → Bool
  | subtree _ => true
  | interval .. => false

instance : Ord PathRange where
  compare a b :=
    ((PathBounds.compareStart a.bounds.start b.bounds.start).then
      (PathBounds.compareStop a.bounds.stop b.bounds.stop)).then
      (compare a.isSubtree b.isSubtree)

end PathRange
end SeriesExec
