import SeriesExec.Pipeline
import SeriesExec.Store.Projection
import SeriesExec.Task.Basic

/-!
# Store execution — a task on a store

The first operator of a task reads or writes the unit that the task is stamped with, and the other
operators are applied to the rows that were read.  This file defines:

* `Projection.fetch` — a read whose patterns are compiled first;
* `Store.execute` — the store and the result of a task on it.
-/

namespace SeriesExec

variable [PatternLibrary]

/-- What a read finds, unless one of the patterns is refused. -/
def Projection.fetch (patterns : List String) (batches : List Batch) : Except Error RowStream :=
  match Wildcard.rejection? patterns with
  | some e => .error e
  | none => Projection.read patterns batches

namespace Store

/-- The result of the operators behind a write, of which there must be none. -/
def afterWrite (task : TaskId) (rest : List Operator) : TaskResult :=
  if rest.isEmpty then .ok .done else .error (.fault (.writeNotAlone task))

/-- Runs operators on a unit.  A write takes place before the operators behind it are looked at, but
nothing is removed if a pattern is refused. -/
def executeOn (s : Store) (unit : UnitId) (task : TaskId) : List Operator → Store × TaskResult
  | [] => (s, .error (.fault (.noOperator task)))
  | .insert b :: rest =>
    match s.insert unit b with
    | .error e => (s, .error e)
    | .ok s' => (s', afterWrite task rest)
  | .delete patterns :: rest =>
    match Wildcard.rejection? patterns with
    | some e => (s, .error e)
    | none => (s.delete unit patterns, afterWrite task rest)
  | .project patterns :: rest =>
    match Projection.fetch patterns (s.batches unit) with
    | .error e => (s, .error e)
    | .ok rows => (s, (Pipeline.run rest [rows]).map .rows)
  | op :: _ => (s, .error (.unexpectedOperator op.kind.name))

/-- Runs a task on the unit it is stamped with. -/
def execute (s : Store) (task : TaskId) (stamp : Option UnitId) (operators : List Operator) :
    Store × TaskResult :=
  match stamp with
  | none => (s, .error (.fault (.notStamped task)))
  | some unit => s.executeOn unit task operators

end Store
end SeriesExec
