import SeriesExec.Rows.Column

/-!
# Batches — columns of equal length

This file defines:

* `Batch` — a list of columns, each with the same number of values;
* `Batch.schema` — the fields of the columns;
* `Batch.slice` — a range of its rows;
* `Batch.select` — the columns whose field passes a test;
* `Batch.column` — the values of the column at a position.

A batch without columns still has a number of rows.
-/

namespace SeriesExec

/-- Some rows, column by column. -/
structure Batch where
  columns : List Column
  rows : Nat
  uniform : ∀ c ∈ columns, c.cells.length = rows
  deriving DecidableEq

namespace Batch

instance : Inhabited Batch := ⟨⟨[], 0, by simp⟩⟩

/-- The batch of these columns, if they all have this number of values. -/
def ofColumns? (columns : List Column) (rows : Nat) : Option Batch :=
  if h : ∀ c ∈ columns, c.cells.length = rows then some ⟨columns, rows, h⟩ else none

def schema (b : Batch) : List Field :=
  b.columns.map Column.field

/-- The `len` rows from `start` on; `start + len` must not exceed the rows there are. -/
def slice (b : Batch) (start len : Nat) (h : start + len ≤ b.rows) : Batch where
  columns := b.columns.map fun c => { c with cells := (c.cells.drop start).take len }
  rows := len
  uniform := by
    intro c hc
    obtain ⟨c', hc', rfl⟩ := List.mem_map.mp hc
    have := b.uniform c' hc'
    simp only [List.length_take, List.length_drop]
    omega

/-- The columns whose field passes the test. -/
def select (b : Batch) (keep : Field → Bool) : Batch where
  columns := b.columns.filter fun c => keep c.field
  rows := b.rows
  uniform c hc := b.uniform c (List.mem_filter.mp hc).1

/-- The values at a position among the columns; a column that is not there has no values. -/
def column (b : Batch) (j : Nat) : List Cell :=
  match b.columns[j]? with
  | some c => c.cells
  | none => List.replicate b.rows none

@[simp]
theorem length_column (b : Batch) (j : Nat) : (b.column j).length = b.rows := by
  unfold column
  split
  · rename_i c hc
    exact b.uniform c (List.mem_of_getElem? hc)
  · exact List.length_replicate

@[simp]
theorem schema_slice (b : Batch) (start len : Nat) (h : start + len ≤ b.rows) :
    (b.slice start len h).schema = b.schema := by
  simp [schema, slice]

@[simp]
theorem schema_select (b : Batch) (keep : Field → Bool) :
    (b.select keep).schema = b.schema.filter keep := by
  simp [schema, select, List.filter_map, Function.comp_def]

end Batch
end SeriesExec
