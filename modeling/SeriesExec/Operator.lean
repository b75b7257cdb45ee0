import SeriesExec.Rows.Batch
import SeriesExec.TagFilter

/-!
# Operators — what a task does

A task carries a list of operators, done one after another.  This file defines:

* `SeriesQuery` — which series a listing shows;
* `Operator` — one step of a task;
* `OperatorKind` — an operator without its arguments; kinds are ordered as they are listed.
-/

namespace SeriesExec

/-- Which series of the cluster to list. -/
structure SeriesQuery where
  /-- Patterns for the path, of which one must match; none at all admits every path. -/
  paths : List String
  filter : Option TagFilter
  /-- How many series to show at most. -/
  limit : Option Nat
  /-- How many series to leave out first. -/
  offset : Nat
  deriving Inhabited

/-- One step of a task. -/
inductive Operator where
  /-- Reads the series that match one of the patterns. -/
  | project (patterns : List String)
  /-- Writes a batch, whose columns after the first are series. -/
  | insert (batch : Batch)
  /-- Removes the series that match one of the patterns. -/
  | delete (patterns : List String)
  /-- Lists series of the whole cluster. -/
  | listSeries (query : SeriesQuery)
  /-- Keeps `count` rows behind the first `offset`. -/
  | limit (count offset : Nat)
  /-- Puts all inputs behind one another. -/
  | union
  deriving Inhabited

/-- An operator without its arguments. -/
inductive OperatorKind where
  | project
  | insert
  | delete
  | listSeries
  | limit
  | union
  deriving DecidableEq, Repr, Inhabited

namespace OperatorKind

def name : OperatorKind → String
  | project => "Project"
  | insert => "Insert"
  | delete => "Delete"
  | listSeries => "ShowTimeSeries"
  | limit => "Limit"
  | union => "Union"

/-- The place of a kind in their order. -/
def rank : OperatorKind → Nat
  | project => 0
  | insert => 1
  | delete => 2
  | listSeries => 3
  | limit => 4
  | union => 5

instance : Ord OperatorKind where
  compare a b := compare a.rank b.rank

end OperatorKind

namespace Operator

def kind : Operator → OperatorKind
  | project _ => .project
  | insert _ => .insert
  | delete _ => .delete
  | listSeries _ => .listSeries
  | limit .. => .limit
  | union => .union

/-- Whether the operator changes what a unit stores. -/
def isWrite : Operator → Bool
  | insert _ => true
  | delete _ => true
  | _ => false

end Operator
end SeriesExec
