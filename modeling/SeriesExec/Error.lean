import SeriesExec.Rows.Column

/-!
# Errors — what can go wrong, and how it is told

This file defines:

* `TaskId`, `UnitId`, `EngineId` — how tasks, storage units and storage engines are referred to;
* `Fault` — the causes that arise inside the library, each with its wording;
* `Error` — an error as an answer carries it: a cause of its own, or one wrapped around another;
* `ErrorKind` and `Error.kind` — the coarse class of an error;
* `Error.texts` — the text of an error together with the texts of the errors below it;
* `Error.message` — the text of an error.

Tasks have no texts of their own, so everything that writes one is given a function that names
them.
-/

namespace SeriesExec

/-- A task is the position at which it was made. -/
abbrev TaskId := Nat

/-- A storage unit has a name. -/
abbrev UnitId := String

/-- A storage engine has a number. -/
abbrev EngineId := Nat

/-- A cause inside the library. -/
inductive Fault where
  /-- A cause that is known by its text only, as an outside driver reports it. -/
  | text (s : String)
  | noBatch
  /-- A batch has another schema than the first. -/
  | batchSchemas (expected actual : List Field)
  | unionWithoutInput
  | unionSchemas (expected actual : List Field)
  | inputCount (n : Nat)
  | parentTwice (parent : TaskId)
  | followerTaken (task : TaskId)
  | followerTakenBy (task follower : TaskId)
  | parentWithoutResult (parent : TaskId)
  | nothingToCount (task : TaskId)
  | ledgerPoisoned
  | noOperator (task : TaskId)
  | notStamped (task : TaskId)
  | writeNotAlone (task : TaskId)
  | keyNotFirst
  | seriesTypes (series : String) (seen found : ColumnType)
  | nullNotAllowed (column : String)
  | columnType (expected found : ColumnType) (position : Nat)
  | driverPanicked
  | onlyMasterHasReplicas (unit : UnitId)
  | replicaOfOther (replica master : UnitId)
  | replicaTwice (replica : UnitId)
  | engineExists (engine : EngineId)
  | unitExists (unit : UnitId)
  | engineOfUnitMissing (unit : UnitId) (engine : EngineId)
  | masterMissing (unit : UnitId)
  | noDriver (engine : EngineId) (type : String)
  | foreignEngineType (engine : EngineId) (type : String)
  | badInterval (text : String)
  | badSubtree (text : String)
  deriving DecidableEq, Inhabited

/-- The wording of a cause; `name` writes a task. -/
def Fault.message (name : TaskId → String) : Fault → String
  | text s => s
  | noBatch => "at least one batch is required"
  -- Schemas are not written out, so these two texts end where the schemas would begin.
  | batchSchemas _ _ => "batches with different schemas"
  | unionWithoutInput => "union requires at least one input"
  | unionSchemas _ _ => "union inputs have different schemas"
  | inputCount n => "expect exactly one input stream, actual:" ++ toString n
  | parentTwice p => "parent " ++ name p ++ " is listed twice"
  | followerTaken t => "task " ++ name t ++ " already has a follower"
  | followerTakenBy t f => "task " ++ name t ++ " already has a follower, new follower:" ++ name f
  | parentWithoutResult p => "parent " ++ name p ++ " finished without result"
  | nothingToCount t => "task has no operator, task:" ++ name t
  | ledgerPoisoned =>
    "requests monitor lock poisoned, err:poisoned lock: another task failed inside"
  | noOperator t => "storage task without operators, task:" ++ name t
  | notStamped t => "task is not dispatched to a storage unit, task:" ++ name t
  | writeNotAlone t => "write operator must be the only one of a task, task:" ++ name t
  | keyNotFirst => "first column of inserted batch must be " ++ keyName
  | seriesTypes s seen found =>
    "series " ++ s ++ " is stored with types " ++ seen.name ++ " and " ++ found.name
  | nullNotAllowed c =>
    "Invalid argument error: Column '" ++ c ++
      "' is declared as non-nullable but contains null values"
  | columnType expected found position =>
    "Invalid argument error: column types must match schema types, expected " ++ expected.name ++
      " but found " ++ found.name ++ " at column index " ++ toString position
  | driverPanicked => "storage driver panicked"
  | onlyMasterHasReplicas u => "only master can hold replicas, unit:" ++ u
  | replicaOfOther r m => "replica " ++ r ++ " doesn't belong to master " ++ m
  | replicaTwice r => "duplicate replica, id:" ++ r
  | engineExists e => "storage engine already exists, id:" ++ toString e
  | unitExists u => "storage unit already exists, id:" ++ u
  | engineOfUnitMissing u e =>
    "storage engine of unit not found, unit:" ++ u ++ ", engine:" ++ toString e
  | masterMissing u => "master of replica not found, unit:" ++ u
  | noDriver e t => "no driver for storage engine type, id:" ++ toString e ++ ", type:" ++ t
  | foreignEngineType e t => "unexpected engine type, id:" ++ toString e ++ ", type:" ++ t
  | badInterval s => "invalid series interval:" ++ s
  | badSubtree s => "invalid series prefix:" ++ s

/-- Why a request or a task failed. -/
inductive Error where
  /-- The pool of an engine holds more waiting tasks than it may. -/
  | tooManyTasks (engine : EngineId) (unit : UnitId) (pending limit : Nat)
  | unexpectedOperator (operator : String)
  | unknownUnit (unit : UnitId)
  | engineNotReady (engine : EngineId)
  /-- A driver failed at a task. -/
  | execution (cause : Error)
  /-- A task was not run because a task that feeds it failed. -/
  | parentFailed (parent : Error)
  | fault (f : Fault)
  /-- Another error, seen from what was being done when it arose. -/
  | context (doing : String) (wrapped : Error)
  deriving DecidableEq, Inhabited

/-- The coarse class of an error. -/
inductive ErrorKind where
  | tooManyTasks
  | execution
  | unexpectedOperator
  | unknownUnit
  | engineNotReady
  | parentFailed
  | internal
  deriving DecidableEq, Repr, Inhabited

namespace Error

def kind : Error → ErrorKind
  | tooManyTasks .. => .tooManyTasks
  | unexpectedOperator _ => .unexpectedOperator
  | unknownUnit _ => .unknownUnit
  | engineNotReady _ => .engineNotReady
  | execution _ => .execution
  | parentFailed _ => .parentFailed
  | fault _ => .internal
  | context .. => .internal

/-- The text of an error, and below it the texts of the errors that it wraps, outermost first.
An execution error tells all of them in its own text, a failed parent only the first. -/
def texts (name : TaskId → String) : Error → String × List String
  | tooManyTasks engine unit pending limit =>
    ("too many pending tasks for this storage, storage_engine:" ++ toString engine ++ ", unit:" ++
      unit ++ ", pending:" ++ toString pending ++ ", max:" ++ toString limit, [])
  | unexpectedOperator op => ("unexpected operator:" ++ op, [])
  | unknownUnit unit => ("storage unit not found, id:" ++ unit, [])
  | engineNotReady engine => ("storage engine is not ready, id:" ++ toString engine, [])
  | execution cause =>
    let inner := texts name cause
    let below := inner.1 :: inner.2
    ("execute physical task failed, err:" ++ ": ".intercalate below, below)
  | parentFailed parent =>
    let inner := texts name parent
    ("parent task failed, err:" ++ inner.1, inner.1 :: inner.2)
  | fault f => (f.message name, [])
  | context doing wrapped =>
    let inner := texts name wrapped
    (doing, inner.1 :: inner.2)

def message (name : TaskId → String) (e : Error) : String :=
  (texts name e).1

end Error
end SeriesExec
