import SeriesExec.Tags

/-!
# Columns — typed values under a name

This file defines:

* `ColumnType` — the types a column can have, with their names;
* `Value` and `Cell` — one value of a column; a missing value is `none`;
* `Field` — what is known of a column without its values;
* `Column` — a field with its values.
-/

namespace SeriesExec

/-- The type of the values of a column. -/
inductive ColumnType where
  | boolean
  | int8
  | int32
  | int64
  | uint64
  | float32
  | float64
  | utf8
  | binary
  | date32
  deriving DecidableEq, Repr, Inhabited

namespace ColumnType

def name : ColumnType → String
  | boolean => "Boolean"
  | int8 => "Int8"
  | int32 => "Int32"
  | int64 => "Int64"
  | uint64 => "UInt64"
  | float32 => "Float32"
  | float64 => "Float64"
  | utf8 => "Utf8"
  | binary => "Binary"
  | date32 => "Date32"

def all : List ColumnType :=
  [boolean, int8, int32, int64, uint64, float32, float64, utf8, binary, date32]

/-- The type with this name. -/
def ofName? (s : String) : Option ColumnType :=
  all.find? fun t => t.name == s

end ColumnType

/-- A value of a column.  Floating point numbers are kept as their bits, nothing is computed
with them. -/
inductive Value where
  | bool (b : Bool)
  | int (i : Int)
  | float32 (bits : UInt32)
  | float64 (bits : UInt64)
  | text (s : String)
  deriving DecidableEq, Repr, Inhabited

/-- A value or its absence. -/
abbrev Cell := Option Value

/-- Name, type and attributes of a column. -/
structure Field where
  name : String
  type : ColumnType
  nullable : Bool
  metadata : Tags
  deriving DecidableEq, Inhabited

/-- A field with its values. -/
structure Column where
  field : Field
  cells : List Cell
  deriving DecidableEq, Inhabited

/-- The name of the leading column of a batch of data, which holds the time of each row. -/
def keyName : String := "key"

end SeriesExec
