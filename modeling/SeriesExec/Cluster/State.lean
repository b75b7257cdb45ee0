import SeriesExec.Cluster.Driver
import SeriesExec.Ledger
import SeriesExec.Queue
import SeriesExec.Topology.Catalog

/-!
# Cluster state — where every task is

Each unit has a queue and a loop that takes deliveries out of it.  The loop hands them to the
workers of its engine.  Tasks over rows in memory have one queue and one set of workers.  This file
defines:

* `Delivery` — one handing over of a task to a unit;
* `UnitLoop`, `EngineSite`, `Run`, `Ending` — the places of a delivery, in the order in which it
  passes them: the queue of its unit, the queue of its engine, a worker, the past;
* `MemoryStage` — the places of a memory task;
* `Verdict` and `Monitor` — who is told about executed tasks, and how that goes;
* `Cluster` — all of it, with the tasks, the catalog and the ledger;
* access to single tasks, units and engines.
-/

namespace SeriesExec

/-- A task handed over to a unit; deliveries are numbered as they are accepted. -/
structure Delivery where
  id : Nat
  task : TaskId
  unit : UnitId
  deriving DecidableEq, Repr, Inhabited

/-- How far a loop has got with finding its engine. -/
inductive LoopPhase where
  /-- It looks for the engine before it takes anything from the queue. -/
  | seeking
  /-- It has the engine. -/
  | serving
  /-- It has given up looking; it looks once more at each delivery. -/
  | resigned
  deriving DecidableEq, Repr, Inhabited

/-- A known unit, with its queue and its loop. -/
structure UnitLoop where
  id : UnitId
  engine : EngineId
  isDummy : Bool
  queue : Queue Delivery
  phase : LoopPhase
  deriving Inhabited

/-- An engine that is ready, with the deliveries that wait for its workers. -/
structure EngineSite where
  id : EngineId
  driver : Driver
  workers : Nat
  waiting : Queue Delivery
  deriving Inhabited

/-- The name of the workers of an engine. -/
def EngineSite.poolName (s : EngineSite) : String :=
  "storage-" ++ toString s.id

/-- A delivery that a worker of an engine is busy with. -/
structure Run where
  delivery : Delivery
  engine : EngineId
  /-- How the call of the driver ends. -/
  outcome : Outcome
  /-- Whether the call still waits for a permit. -/
  isHeld : Bool
  deriving Inhabited

/-- What became of a delivery. -/
inductive Fate where
  /-- It was refused because the engine was not ready. -/
  | notReady
  /-- It was refused because too many deliveries were waiting. -/
  | overloaded
  /-- A driver was called. -/
  | executed
  deriving DecidableEq, Repr, Inhabited

/-- A delivery that is over. -/
structure Ending where
  delivery : Delivery
  fate : Fate
  result : TaskResult
  deriving Inhabited

/-- The queue and the workers for tasks over rows in memory. -/
structure MemoryStage where
  /-- Whether the loop is on. -/
  isStarted : Bool
  workers : Nat
  queue : Queue TaskId
  waiting : Queue TaskId
  /-- The tasks that workers are busy with. -/
  running : List TaskId
  deriving Inhabited

/-- How it went to tell a monitor about a task. -/
inductive Verdict where
  | noted
  | failed
  | panicked
  deriving DecidableEq, Repr, Inhabited

/-- What is told about every executed task. -/
inductive Monitor where
  /-- Counts it in the ledger. -/
  | counting
  /-- Something outside, which may fail or panic at some tasks. -/
  | outside (verdict : TaskId → Duration → Verdict)
  deriving Inhabited

def Monitor.failing : Monitor := .outside fun _ _ => .failed

def Monitor.crashing : Monitor := .outside fun _ _ => .panicked

/-- Who chooses the unit for a task. -/
inductive Router where
  /-- Every task goes to the master. -/
  | master
  /-- Reads follow their session. -/
  | affinity
  | fixed (unit : UnitId)
  deriving DecidableEq, Repr, Inhabited

/-- A change that the hooks of the catalog have told. -/
inductive Notice where
  | unit (before after : Option StorageUnit)
  | engine (before after : Option EngineId)
  deriving Inhabited

/-- The whole execution layer of a node. -/
structure Cluster where
  config : ExecutorConfig
  catalog : Catalog
  factories : List (String × Factory)
  router : Router
  monitors : List Monitor
  tasks : List Task
  /-- The known units, in the order in which they became known. -/
  units : List UnitLoop
  engines : List (EngineId × EngineSite)
  running : List Run
  /-- The deliveries that are over, oldest first. -/
  finished : List Ending
  /-- How many deliveries have been accepted. -/
  accepted : Nat
  memory : MemoryStage
  ledger : Ledger
  /-- Whether the loops of the units have been stopped for ever. -/
  isClosed : Bool
  /-- Whether nobody holds the executor any more. -/
  isDropped : Bool
  notices : List Notice
  deriving Inhabited

namespace Cluster

/-! ## Access -/

def task? (c : Cluster) (t : TaskId) : Option Task :=
  c.tasks[t]?

def modifyTask (c : Cluster) (t : TaskId) (f : Task → Task) : Cluster :=
  { c with tasks := c.tasks.modify t f }

/-- The cluster with one more task, and the name of the task. -/
def addTask (c : Cluster) (t : Task) : Cluster × TaskId :=
  ({ c with tasks := c.tasks ++ [t] }, c.tasks.length)

def unit? (c : Cluster) (u : UnitId) : Option UnitLoop :=
  c.units.find? fun l => l.id == u

def modifyUnit (c : Cluster) (u : UnitId) (f : UnitLoop → UnitLoop) : Cluster :=
  { c with units := c.units.map fun l => if l.id = u then f l else l }

def engine? (c : Cluster) (e : EngineId) : Option EngineSite :=
  KeyedList.find? e c.engines

def putEngine (c : Cluster) (s : EngineSite) : Cluster :=
  { c with engines := KeyedList.insert s.id s c.engines }

/-- The script of the outside driver for a type of engine. -/
def script? (c : Cluster) (type : String) : Option Script :=
  match KeyedList.find? type c.factories with
  | some (.scripted s) => some s
  | _ => none

def putScript (c : Cluster) (type : String) (s : Script) : Cluster :=
  { c with factories := KeyedList.insert type (.scripted s) c.factories }

/-- The names of the known units in ascending order. -/
def unitIds (c : Cluster) : List UnitId :=
  (c.units.map UnitLoop.id).mergeSort fun a b => decide (a ≤ b)

/-- How many deliveries wait in the queue of a unit. -/
def queueLength? (c : Cluster) (u : UnitId) : Option Nat :=
  (c.unit? u).map fun l => l.queue.size

/-- How many workers of an engine are busy. -/
def busy (c : Cluster) (e : EngineId) : Nat :=
  c.running.countP fun r => r.engine == e

/-- How many memory tasks wait. -/
def pending (c : Cluster) : Nat :=
  c.memory.queue.size + c.memory.waiting.size

end Cluster
end SeriesExec
