import SeriesExec.Error
import SeriesExec.Numeric.Total
import SeriesExec.Rows.Batch

/-!
# Row streams — batches with one schema

The rows that a task hands on are a schema and a list of batches that all have it.  This file
defines:

* `RowStream` — such a list, `RowStream.empty` without any batch, `RowStream.ofBatches` from
  batches that are checked;
* `RowStream.concat` — all rows as one batch;
* `RowStream.limit` — some rows out of the middle, cut batch by batch;
* `RowStream.select` — some of the columns;
* `RowStream.append` — the batches of another stream behind the own ones.
-/

namespace SeriesExec

/-- Rows in batches of one schema. -/
structure RowStream where
  schema : List Field
  batches : List Batch
  coherent : ∀ b ∈ batches, b.schema = schema
  deriving DecidableEq

namespace RowStream

/-- The stream without rows. -/
def empty (schema : List Field) : RowStream := ⟨schema, [], by simp⟩

instance : Inhabited RowStream := ⟨empty []⟩

/-- A stream of one batch. -/
def ofBatch (b : Batch) : RowStream := ⟨b.schema, [b], by simp⟩

/-- A stream of at least one batch, all of the schema that the first one has. -/
def ofBatches : List Batch → Except Fault RowStream
  | [] => .error .noBatch
  | b :: rest =>
    match h : rest.find? fun b' => b'.schema != b.schema with
    | some b' => .error (.batchSchemas b.schema b'.schema)
    | none => .ok ⟨b.schema, b :: rest, by simpa using h⟩

def rowCount (s : RowStream) : Nat :=
  totalOf Batch.rows s.batches

/-- The values of the column at a position, through all batches. -/
def column (s : RowStream) (j : Nat) : List Cell :=
  s.batches.flatMap fun b => b.column j

theorem length_column (s : RowStream) (j : Nat) : (s.column j).length = s.rowCount := by
  rw [column, length_flatMap_eq_totalOf]
  simp only [Batch.length_column]
  rfl

/-- All rows in a single batch. -/
def concat (s : RowStream) : Batch where
  columns := s.schema.mapIdx fun j f => ⟨f, s.column j⟩
  rows := s.rowCount
  uniform := by
    intro c hc
    obtain ⟨j, hj, rfl⟩ := List.mem_mapIdx.mp hc
    exact s.length_column j

/-! ## Cutting rows and columns -/

/-- The batches without the first `skip` rows, and then without what is behind `count` rows.
A batch that loses all its rows is left out. -/
def limitBatches (skip count : Nat) : List Batch → List Batch
  | [] => []
  | b :: rest =>
    if count = 0 then []
    -- A batch without rows is left out also if nothing is to be skipped.
    else if h : b.rows ≤ skip then limitBatches (skip - b.rows) count rest
    else
      let len := min (b.rows - skip) count
      b.slice skip len (by omega) :: limitBatches 0 (count - len) rest

theorem schema_of_mem_limitBatches {schema : List Field} {batches : List Batch}
    (h : ∀ b ∈ batches, b.schema = schema) :
    ∀ (skip count : Nat), ∀ b ∈ limitBatches skip count batches, b.schema = schema := by
  induction batches with
  | nil => simp [limitBatches]
  | cons a rest ih =>
    intro skip count b hb
    have hrest := ih fun b hb => h b (List.mem_cons_of_mem _ hb)
    simp only [limitBatches] at hb
    split at hb
    · cases hb
    · split at hb
      · exact hrest _ _ b hb
      · rcases List.mem_cons.mp hb with rfl | hb
        · rw [Batch.schema_slice]
          exact h a List.mem_cons_self
        · exact hrest _ _ b hb

/-- The `count` rows behind the first `skip` ones. -/
def limit (count skip : Nat) (s : RowStream) : RowStream :=
  ⟨s.schema, limitBatches skip count s.batches, schema_of_mem_limitBatches s.coherent skip count⟩

/-- The columns whose field passes the test. -/
def select (keep : Field → Bool) (s : RowStream) : RowStream where
  schema := s.schema.filter keep
  batches := s.batches.map fun b => b.select keep
  coherent := by
    intro b hb
    obtain ⟨b', hb', rfl⟩ := List.mem_map.mp hb
    rw [Batch.schema_select, s.coherent b' hb']

/-- The rows of `t` behind those of `s`. -/
def append (s t : RowStream) (h : t.schema = s.schema) : RowStream where
  schema := s.schema
  batches := s.batches ++ t.batches
  coherent := by
    intro b hb
    rcases List.mem_append.mp hb with hb | hb
    · exact s.coherent b hb
    · exact (t.coherent b hb).trans h

end RowStream
end SeriesExec
