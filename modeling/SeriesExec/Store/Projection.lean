import SeriesExec.Store.Basic

/-!
# Projection — reading series out of stored batches

A read takes the batches that have a matching series and aligns them on all matching series: a
series that a batch does not have reads as missing values.  This file defines:

* `Projection.Layout` — the key and the series of the rows that are read;
* `Projection.layout` — the layout for stored batches and patterns;
* `Projection.align` — one stored batch in a layout;
* `Projection.misfit` — why a batch does not fit the layout;
* `Projection.read` — all of it.
-/

namespace SeriesExec
namespace Projection

/-- The columns of the rows that are read. -/
structure Layout where
  key : Field
  series : List Field
  deriving DecidableEq

/-- The fields of the series of a batch that a pattern matches. -/
def matching (patterns : List String) (b : Batch) : List Field :=
  ((b.columns.drop 1).map Column.field).filter fun f => Wildcard.anyTest patterns f.name

/-- The known fields with one more.  A series must have one type wherever it is stored. -/
def addField (known : List Field) (f : Field) : Except Error (List Field) :=
  match known.find? fun g => g.name == f.name with
  -- Batches without the series read as missing values, which the column must allow.
  | none => .ok (known ++ [{ f with nullable := true }])
  | some g =>
    if g.type = f.type then .ok known
    else .error (.fault (.seriesTypes f.name g.type f.type))

/-- The layout with the fields of one more batch; batches without any do not count. -/
def addBatch (patterns : List String) (l : Option Layout) (b : Batch) :
    Except Error (Option Layout) :=
  match matching patterns b, b.columns.head? with
  | f :: rest, some first =>
    -- The key is that of the first batch with a match; the others add series only.
    let start := l.getD ⟨first.field, []⟩
    ((f :: rest).foldlM addField start.series).map fun series => some { start with series }
  | _, _ => .ok l

/-- The key of the first batch with a match, and all matching series as they come. -/
def layout (patterns : List String) (batches : List Batch) : Except Error (Option Layout) :=
  batches.foldlM (addBatch patterns) none

/-! ## Alignment -/

/-- The position of the first column with a name, if it is not the key column. -/
def position? (b : Batch) (name : String) : Option Nat :=
  match b.columns.findIdx? fun c => c.field.name == name with
  | some (i + 1) => some (i + 1)
  | _ => none

/-- The values of a series in a batch; all of them are missing if the batch does not have it. -/
def cells (b : Batch) (f : Field) : List Cell :=
  match position? b f.name with
  | some i => b.column i
  | none => List.replicate b.rows none

theorem length_cells (b : Batch) (f : Field) : (cells b f).length = b.rows := by
  unfold cells
  split <;> simp

/-- The type of the values that `cells` gives. -/
def cellType (b : Batch) (f : Field) : ColumnType :=
  match position? b f.name with
  | some i => (b.columns[i]?.map fun c => c.field.type).getD f.type
  | none => f.type

/-- A stored batch in the layout. -/
def align (l : Layout) (b : Batch) : Batch where
  columns := ⟨l.key, b.column 0⟩ :: l.series.map fun f => ⟨f, cells b f⟩
  rows := b.rows
  uniform := by
    intro c hc
    rcases List.mem_cons.mp hc with rfl | hc
    · exact b.length_column 0
    · obtain ⟨f, _, rfl⟩ := List.mem_map.mp hc
      exact length_cells b f

/-- Whether the batch has one of the series. -/
def isTouched (l : Layout) (b : Batch) : Bool :=
  l.series.any fun f => (position? b f.name).isSome

/-- The types of the values that stand in the columns of the layout. -/
def foundTypes (l : Layout) (b : Batch) : List ColumnType :=
  (b.columns.head?.map fun c => c.field.type).getD l.key.type :: l.series.map (cellType b)

/-- The first column whose values are of another type than its field, with its position. -/
def wrongType? (position : Nat) : List Field → List ColumnType → Option Fault
  | f :: fields, t :: types =>
    if f.type = t then wrongType? (position + 1) fields types
    else some (.columnType f.type t position)
  | _, _ => none

/-- Why the aligned batch may not have the schema of the layout: missing values where none are
allowed, looked for in all columns first, or values of another type. -/
def misfit (l : Layout) (b : Batch) : Option Fault :=
  match (align l b).columns.find? fun c => !c.field.nullable && c.cells.contains none with
  | some c => some (.nullNotAllowed c.field.name)
  | none => wrongType? 0 (l.key :: l.series) (foundTypes l b)

/-! ## Reading -/

def schema (l : Layout) : List Field := l.key :: l.series

theorem schema_align (l : Layout) (b : Batch) : (align l b).schema = schema l := by
  simp [Batch.schema, align, schema, Function.comp_def]

/-- The batches that fit, up to the first that does not. -/
def alignAll (l : Layout) :
    List Batch → Except Error { bs : List Batch // ∀ b ∈ bs, b.schema = schema l }
  | [] => .ok ⟨[], by simp⟩
  | b :: rest =>
    match misfit l b, alignAll l rest with
    | some f, _ => .error (.fault f)
    | none, .error e => .error e
    | none, .ok bs => .ok ⟨align l b :: bs.1, by
        intro c hc
        rcases List.mem_cons.mp hc with rfl | hc
        · exact schema_align l b
        · exact bs.2 c hc⟩

/-- The only column of a read that matches nothing. -/
def emptyKey : Field := ⟨keyName, .int64, false, Tags.empty⟩

/-- The rows of the series that a pattern matches. -/
def read (patterns : List String) (batches : List Batch) : Except Error RowStream :=
  match layout patterns batches with
  | .error e => .error e
  | .ok none => .ok (RowStream.empty [emptyKey])
  | .ok (some l) =>
    (alignAll l (batches.filter (isTouched l))).map fun bs => ⟨schema l, bs.1, bs.2⟩

end Projection
end SeriesExec
