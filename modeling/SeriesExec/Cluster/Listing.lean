import SeriesExec.Cluster.State

/-!
# Listing — the series of the whole cluster

A listing asks every engine that is ready, in the order of their numbers, and shows the series by
physical path, each path once.  This file defines:

* `Cluster.seriesOfEngine` — what one engine tells, with the head of its paths;
* `Cluster.gatherSeries` — what all engines tell;
* `SeriesQuery.extract` — the part of a listing that a query asks for, and `SeriesQuery.select`,
  the same with patterns that have to be compiled first;
* `Cluster.listSeries` — the answer to a query.
-/

namespace SeriesExec

/-- The series that a query admits, without the first `offset` and behind the `limit`. -/
def SeriesQuery.extract (q : SeriesQuery) (series : List Series) : List Series :=
  let admitted := series.filter fun s =>
    (q.paths.isEmpty || Wildcard.anyTest q.paths s.path) && q.filter.all fun f => f.test s.tags
  match q.limit with
  | none => admitted.drop q.offset
  | some n => (admitted.drop q.offset).take n

/-- The patterns for paths, each once, in the order in which they are compiled. -/
def SeriesQuery.sortedPaths (q : SeriesQuery) : List String :=
  (KeyedList.ofList (q.paths.map fun p => (p, ()))).map Prod.fst

variable [PatternLibrary]

/-- The series that a query shows, unless one of its patterns is refused. -/
def SeriesQuery.select (q : SeriesQuery) (series : List Series) : Except Error (List Series) :=
  match Wildcard.rejection? q.sortedPaths with
  | some e => .error e
  | none => .ok (q.extract series)

namespace Cluster

/-- The series that a driver tells. -/
def driverSeries (c : Cluster) : Driver → Except Error (List Series)
  | .store s => .ok s.listSeries
  | .scripted type => ((c.script? type).getD default).listSeries

/-- A series with the head of its engine in front of its path. -/
def withHead (head : Option String) (s : Series) : Series :=
  match head with
  | none => s
  | some h => { s with path := h ++ "." ++ s.path }

/-- The series of one engine; one that is not ready has none. -/
def seriesOfEngine (c : Cluster) (e : StorageEngine) : Except Error (List Series) :=
  match c.engine? e.id with
  | none => .ok []
  | some site => (c.driverSeries site.driver).map fun l => l.map (withHead e.schemaHead)

/-- The series of some engines, one after another; the first error ends it. -/
def gatherSeries (c : Cluster) : List StorageEngine → Except Error (List Series)
  | [] => .ok []
  | e :: rest =>
    match c.seriesOfEngine e with
    | .error err => .error err
    | .ok l => (c.gatherSeries rest).map (l ++ ·)

/-- The series that a query shows.  All engines are asked before its patterns are compiled. -/
def listSeries (c : Cluster) (q : SeriesQuery) : Except Error (List Series) :=
  (c.gatherSeries c.catalog.engineList).bind fun l => q.select (Store.bySeriesPath l)

/-- The result of a task over the whole cluster. -/
def globalResult (c : Cluster) : Operator → TaskResult
  | .listSeries q => (c.listSeries q).map fun l => .rows (Series.stream l)
  | op => .error (.unexpectedOperator op.kind.name)

end Cluster
end SeriesExec
