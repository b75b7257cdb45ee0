import SeriesExec.Rows.Stream

/-!
# Series — what a listing shows

This file defines:

* `Series` — a path with a type and tags;
* `Series.physicalPath` — the path with its tags behind it, `cpu.usage{host=a,region=eu}`;
* `Series.stream` — a listing as rows.
-/

namespace SeriesExec

/-- A time series. -/
structure Series where
  path : String
  type : ColumnType
  tags : Tags
  deriving DecidableEq, Inhabited

namespace Series

/-- The path, followed by the tags if there are any. -/
def physicalPath (s : Series) : String :=
  if s.tags.isEmpty then s.path else s.path ++ String.ofList s.tags.render

theorem physicalPath_eq (s : Series) : s.physicalPath =
    if s.tags.entries = [] then s.path
    else s.path ++ ("\x7b" ++ ",".intercalate (s.tags.entries.map fun e => e.1 ++ "=" ++ e.2) ++
      "\x7d") := by
  simp only [physicalPath, Tags.isEmpty, List.isEmpty_iff, Tags.ofList_render]

/-- The columns of a listing. -/
def pathField : Field := ⟨"path", .utf8, false, Tags.empty⟩
def tagsField : Field := ⟨"tags", .utf8, true, Tags.empty⟩
def typeField : Field := ⟨"type", .utf8, false, Tags.empty⟩

/-- The text of the tags; a series without tags has none. -/
def tagsCell (s : Series) : Cell :=
  if s.tags.isEmpty then none else some (.text (String.ofList s.tags.render))

theorem tagsCell_eq (s : Series) : s.tagsCell =
    if s.tags.entries = [] then none
    else some (.text ("\x7b" ++ ",".intercalate (s.tags.entries.map fun e => e.1 ++ "=" ++ e.2) ++
      "\x7d")) := by
  simp only [tagsCell, Tags.isEmpty, List.isEmpty_iff, Tags.ofList_render]

/-- A listing as one batch, with a row for each series. -/
def batch (series : List Series) : Batch where
  columns :=
    [⟨pathField, series.map fun s => some (.text s.path)⟩,
     ⟨tagsField, series.map tagsCell⟩,
     ⟨typeField, series.map fun s => some (.text s.type.name)⟩]
  rows := series.length
  uniform := by simp

def stream (series : List Series) : RowStream :=
  RowStream.ofBatch (batch series)

@[simp]
theorem schema_stream (series : List Series) :
    (stream series).schema = [pathField, tagsField, typeField] := rfl

@[simp]
theorem batches_stream (series : List Series) : (stream series).batches = [batch series] := rfl

@[simp]
theorem rows_batch (series : List Series) : (batch series).rows = series.length := rfl

end Series
end SeriesExec
