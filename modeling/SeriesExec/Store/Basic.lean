import SeriesExec.Rows.Stream
import SeriesExec.Series
import SeriesExec.Wildcard

/-!
# Store — batches kept in memory, unit by unit

A store keeps the batches that were inserted into each of its units.  The first column of a batch is
the key, every other column is a series named by its path, with tags in the field.  This file
defines:

* `Store` — the batches by unit;
* `Store.insert` — one more batch for a unit;
* `Store.delete` — the batches of a unit without some of their series;
* `Store.listSeries` — the series stored anywhere, by ascending physical path.
-/

namespace SeriesExec

/-- The stored batches by unit, oldest first. -/
structure Store where
  units : List (UnitId × List Batch)
  deriving Inhabited

namespace Store

def empty : Store := ⟨[]⟩

/-- The batches of a unit. -/
def batches (s : Store) (unit : UnitId) : List Batch :=
  (KeyedList.find? unit s.units).getD []

/-- Whether the first column is the key. -/
def hasKey (b : Batch) : Bool :=
  (b.columns.head?.map fun c => c.field.name) == some keyName

def insert (s : Store) (unit : UnitId) (b : Batch) : Except Error Store :=
  if hasKey b then
    .ok ⟨KeyedList.update unit (fun old => old.getD [] ++ [b]) s.units⟩
  else .error (.fault .keyNotFirst)

/-- The batch with its key and the series that no pattern matches. -/
def strip (patterns : List String) (b : Batch) : Batch where
  -- The key stays even if a pattern matches its name.
  columns := b.columns.take 1 ++
    (b.columns.drop 1).filter fun c => !Wildcard.anyTest patterns c.field.name
  rows := b.rows
  uniform := by
    intro c hc
    rcases List.mem_append.mp hc with hc | hc
    · exact b.uniform c (List.mem_of_mem_take hc)
    · exact b.uniform c (List.mem_of_mem_drop (List.mem_filter.mp hc).1)

/-- The batches without the series that a pattern matches; a batch that has none left is gone. -/
def stripAll (patterns : List String) (batches : List Batch) : List Batch :=
  (batches.map (strip patterns)).filter fun b => decide (1 < b.columns.length)

/-- Removes the matching series from a unit.  A unit without batches stays as it is. -/
def delete (s : Store) (unit : UnitId) (patterns : List String) : Store :=
  ⟨s.units.map fun e => if e.1 = unit then (e.1, stripAll patterns e.2) else e⟩

/-! ## Listing -/

/-- The series of a field. -/
def seriesOf (f : Field) : Series :=
  ⟨f.name, f.type, f.metadata⟩

/-- The series of a batch: all its columns but the first. -/
def seriesOfBatch (b : Batch) : List Series :=
  (b.columns.drop 1).map fun c => seriesOf c.field

theorem mem_seriesOfBatch {b : Batch} {x : Series} :
    x ∈ seriesOfBatch b ↔ ∃ col ∈ b.columns.drop 1, seriesOf col.field = x :=
  List.mem_map

/-- Series by ascending physical path; of two with the same one the first is kept. -/
def bySeriesPath (series : List Series) : List Series :=
  (series.foldl (fun l s => KeyedList.insertNew s.physicalPath s l) []).map Prod.snd

def listSeries (s : Store) : List Series :=
  bySeriesPath (s.units.flatMap fun e => e.2.flatMap seriesOfBatch)

end Store
end SeriesExec
