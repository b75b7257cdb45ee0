import SeriesExec.Duration.Basic
import SeriesExec.Operator
import SeriesExec.Rows.Stream
import SeriesExec.Topology.Fragment

/-!
# Tasks — operators with a place to run

This file defines:

* `Output` and `TaskResult` — what a task ends with;
* `Shape` — the three kinds of tasks: on a storage unit, over rows in memory, over the cluster;
* `Task` — a task with everything that happens to it;
* the ways to make a task, and what may be set on one, always only once.
-/

namespace SeriesExec

/-- What a task that succeeds hands on. -/
inductive Output where
  /-- Nothing: the task wrote. -/
  | done
  | rows (s : RowStream)
  deriving Inhabited

abbrev TaskResult := Except Error Output

/-- A task on the unit that holds a fragment. -/
structure StorageShape where
  fragment : Fragment
  /-- The session that a read belongs to. -/
  session : Option UInt64
  /-- The unit that took the task first. -/
  stamp : Option UnitId
  /-- Whether the unit that took the task last is a dummy unit. -/
  onDummy : Bool
  deriving Inhabited

/-- A task over the outputs of other tasks, or over a source of its own. -/
structure MemoryShape where
  /-- The tasks whose outputs are read; they are forgotten once the task has run. -/
  parents : List TaskId
  /-- How many parents must be ready before the task runs. -/
  required : Nat
  /-- How often a parent has reported to be ready. -/
  ready : Nat
  source : Option RowStream
  deriving Inhabited

/-- Where a task runs. -/
inductive Shape where
  | storage (s : StorageShape)
  | memory (m : MemoryShape)
  | global
  deriving Inhabited

/-- A task. -/
structure Task where
  operators : List Operator
  /-- Whether the end of the task may release its follower. -/
  isSync : Bool
  /-- Whether the task, once it has succeeded, is copied to the other members of its group. -/
  broadcasts : Bool
  result : Option TaskResult
  span : Option Duration
  /-- The memory task that is fed by this one. -/
  follower : Option TaskId
  shape : Shape
  deriving Inhabited

namespace Task

/-- A task to which nothing has happened yet. -/
def new (operators : List Operator) (isSync broadcasts : Bool) (shape : Shape) : Task :=
  ⟨operators, isSync, broadcasts, none, none, none, shape⟩

def newStorage (operators : List Operator) (fragment : Fragment) (isSync broadcasts : Bool)
    (session : Option UInt64) : Task :=
  new operators isSync broadcasts (.storage ⟨fragment, session, none, false⟩)

/-- A task over rows of its own. -/
def newSource (operators : List Operator) (source : RowStream) : Task :=
  new operators true false (.memory ⟨[], 0, 0, some source⟩)

/-- A task over the outputs of `parents`. -/
def newFollower (operators : List Operator) (parents : List TaskId) : Task :=
  new operators true false (.memory ⟨parents, parents.length, 0, none⟩)

def newGlobal (operator : Operator) : Task :=
  new [operator] true false .global

/-- The same operators on the same fragment for another member of the group.  A copy releases
nothing, and is not copied again. -/
def replicaCopy (operators : List Operator) (fragment : Fragment) : Task :=
  newStorage operators fragment false false none

/-- Of the task that is copied, operators and fragment are left. -/
theorem replicaCopy_eq (operators : List Operator) (fragment : Fragment) :
    replicaCopy operators fragment =
      { operators := operators
        isSync := false
        broadcasts := false
        result := none
        span := none
        follower := none
        shape := .storage
          { fragment := fragment, session := none, stamp := none, onDummy := false } } :=
  rfl

def storage? (t : Task) : Option StorageShape :=
  match t.shape with
  | .storage s => some s
  | _ => none

def memory? (t : Task) : Option MemoryShape :=
  match t.shape with
  | .memory m => some m
  | _ => none

def isStorage (t : Task) : Bool := t.storage?.isSome

def isMemory (t : Task) : Bool := t.memory?.isSome

def isGlobal (t : Task) : Bool :=
  match t.shape with
  | .global => true
  | _ => false

/-- The operator that decides how the task is counted and routed. -/
def firstKind? (t : Task) : Option OperatorKind :=
  t.operators.head?.map Operator.kind

/-- Whether the first operator writes. -/
def isWrite (t : Task) : Bool :=
  t.operators.head?.any Operator.isWrite

/-- The task with its result.  Only the first one counts. -/
def setResult (t : Task) (r : TaskResult) : Task :=
  { t with result := t.result.or (some r) }

/-- The task with the time it took.  Only the first one counts. -/
def setSpan (t : Task) (d : Duration) : Task :=
  { t with span := t.span.or (some d) }

def setFollower (t : Task) (follower : TaskId) : Task :=
  { t with follower := t.follower.or (some follower) }

/-- The task after a unit has taken it.  The first unit stays, the dummy mark follows the last. -/
def stampUnit (t : Task) (unit : UnitId) (isDummy : Bool) : Task :=
  match t.shape with
  | .storage s =>
    { t with shape := .storage { s with stamp := s.stamp.or (some unit), onDummy := isDummy } }
  | _ => t

/-- The task after one more report that a parent is ready. -/
def countParent (t : Task) : Task :=
  match t.shape with
  | .memory m => { t with shape := .memory { m with ready := m.ready + 1 } }
  | _ => t

/-- Whether exactly all parents have reported. -/
def isReleased (t : Task) : Bool :=
  match t.shape with
  | .memory m => m.ready == m.required
  | _ => false

/-- Whether there are parents that have not reported yet. -/
def awaitsParents (t : Task) : Bool :=
  match t.shape with
  | .memory m => decide (m.ready < m.required)
  | _ => false

/-- The task without its parents. -/
def forgetParents (t : Task) : Task :=
  match t.shape with
  | .memory m => { t with shape := .memory { m with parents := [] } }
  | _ => t

end Task
end SeriesExec
