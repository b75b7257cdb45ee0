import SeriesExec.Operator
import SeriesExec.Rows.Stream
import SeriesExec.Wildcard.Library

/-!
# Pipelines — operators over rows in memory

A list of operators is applied to a list of input streams, one operator after another.  `union`
takes any positive number of inputs, `limit` and `project` exactly one, and no other operator works
in memory.  This file defines:

* `Pipeline.single` — the only stream of a list;
* `Pipeline.unite` — all streams behind one another, if their schemas agree;
* `Pipeline.project` — some columns of a stream, if the patterns for them can be used;
* `Pipeline.apply` — one operator;
* `Pipeline.run` — all operators of a task.
-/

namespace SeriesExec
namespace Pipeline

/-- The stream of a list that holds exactly one. -/
def single : List RowStream → Except Error RowStream
  | [s] => .ok s
  | inputs => .error (.fault (.inputCount inputs.length))

/-- The streams of the list behind `s`, up to the first one with another schema. -/
def uniteFrom (s : RowStream) : List RowStream → Except Error RowStream
  | [] => .ok s
  | t :: rest =>
    if h : t.schema = s.schema then uniteFrom (s.append t h) rest
    else .error (.fault (.unionSchemas s.schema t.schema))

def unite : List RowStream → Except Error RowStream
  | [] => .error (.fault .unionWithoutInput)
  | s :: rest => uniteFrom s rest

/-- Whether a projection keeps a column: the key, and every series that a pattern matches. -/
def keeps (patterns : List String) (f : Field) : Bool :=
  f.name == keyName || Wildcard.anyTest patterns f.name

variable [PatternLibrary]

/-- The columns that the patterns keep, unless one of the patterns is refused. -/
def project (patterns : List String) (s : RowStream) : Except Error RowStream :=
  match Wildcard.rejection? patterns with
  | some e => .error e
  | none => .ok (s.select (keeps patterns))

def apply (inputs : List RowStream) : Operator → Except Error RowStream
  | .union => unite inputs
  | .limit count offset => (single inputs).map (RowStream.limit count offset)
  -- The number of inputs is looked at before the patterns are.
  | .project patterns => (single inputs).bind (project patterns)
  | op => .error (.unexpectedOperator op.kind.name)

/-- The result of all operators in turn, each fed by the one before it. -/
def run : List Operator → List RowStream → Except Error RowStream
  | [], inputs => single inputs
  | op :: rest, inputs =>
    match apply inputs op with
    | .error e => .error e
    | .ok s => run rest [s]

end Pipeline
end SeriesExec
