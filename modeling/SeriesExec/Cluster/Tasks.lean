import SeriesExec.Cluster.State

/-!
# Cluster tasks — followers, results and deliveries

This file defines what the steps of a cluster are made of:

* `Cluster.enqueue` — handing a task over to a unit;
* `Cluster.report` — telling a follower that a parent is ready;
* `Cluster.executeMemory` — the result of a memory task from the results of its parents;
* `Cluster.settleTask` — setting the result of a storage task and releasing its follower;
* `Cluster.broadcast` — copying a task to the other members of its group;
* `Cluster.observe` — telling the monitors about an executed task.
-/

namespace SeriesExec
namespace Cluster

/-! ## Deliveries -/

/-- Hands a task over to a unit, which must be known. -/
def enqueue (c : Cluster) (u : UnitId) (t : TaskId) : Except Error Cluster :=
  match c.unit? u with
  | none => .error (.unknownUnit u)
  | some _ =>
    let d : Delivery := ⟨c.accepted, t, u⟩
    .ok ({ c with accepted := c.accepted + 1 }.modifyUnit u fun l =>
      { l with queue := l.queue.push d })

/-- Hands a task over to the memory stage. -/
def addMemory (c : Cluster) (t : TaskId) : Cluster :=
  { c with memory := { c.memory with queue := c.memory.queue.push t } }

/-! ## Results and followers -/

/-- Tells a follower that one of its parents is ready; whether it is thereby released. -/
def report (c : Cluster) (follower : TaskId) : Cluster × Bool :=
  let c' := c.modifyTask follower Task.countParent
  (c', (c'.task? follower).any Task.isReleased)

/-- Reports to the follower of a task, if it has one; the follower if it is thereby released. -/
def release (c : Cluster) (t : TaskId) : Cluster × Option TaskId :=
  match (c.task? t).bind Task.follower with
  | none => (c, none)
  | some f =>
    let r := c.report f
    (r.1, if r.2 then some f else none)

/-- The rows of the listed parents; one that failed, or has no result, stops it. -/
def parentRows (c : Cluster) : List TaskId → Except Error (List RowStream)
  | [] => .ok []
  | p :: rest =>
    match (c.task? p).bind Task.result with
    | none => .error (.fault (.parentWithoutResult p))
    | some (.error e) => .error (.parentFailed e)
    -- A parent that wrote has no rows to hand on, and is passed over.
    | some (.ok .done) => c.parentRows rest
    | some (.ok (.rows s)) => (c.parentRows rest).map (s :: ·)

variable [PatternLibrary]

/-- The result of the operators of a memory task over its own source and the rows of its parents. -/
def memoryResult (c : Cluster) (t : Task) : TaskResult :=
  match t.memory? with
  | none => .error (.fault (.inputCount 0))
  | some m =>
    match c.parentRows m.parents with
    | .error e => .error e
    | .ok rows => (Pipeline.run t.operators (m.source.toList ++ rows)).map .rows

/-- Runs a memory task, which forgets its parents.  The result is not stored. -/
def executeMemory (c : Cluster) (t : TaskId) : Cluster × TaskResult :=
  match c.task? t with
  | none => (c, .error (.fault (.inputCount 0)))
  | some task => (c.modifyTask t Task.forgetParents, c.memoryResult task)

/-- Sets the result of a storage task.  If the task is sync, its follower learns of it, and goes
to the memory stage once it is released. -/
def settleTask (c : Cluster) (t : TaskId) (r : TaskResult) : Cluster :=
  let c' := c.modifyTask t fun task => task.setResult r
  if (c'.task? t).any Task.isSync then
    match c'.release t with
    | (c'', some f) => c''.addMemory f
    | (c'', none) => c''
  else c'

/-! ## Copies -/

/-- Makes a copy of a task for one unit.  A unit that is not known gets none. -/
def sendCopy (task : Task) (fragment : Fragment) (c : Cluster) (u : UnitId) : Cluster :=
  let made := c.addTask (Task.replicaCopy task.operators fragment)
  match made.1.enqueue u made.2 with
  | .ok c' => c'
  | .error _ => c

/-- The units that get a copy of a task: the members of its group but the one that executed it. -/
def copyTargets (s : StorageShape) : List UnitId :=
  s.fragment.master.groupIds.filter fun u => u != s.stamp.getD ""

/-- Copies a task to the other members of its group. -/
def broadcast (c : Cluster) (t : TaskId) : Cluster :=
  match c.task? t with
  | none => c
  | some task =>
    match task.storage? with
    | none => c
    | some s => (copyTargets s).foldl (sendCopy task s.fragment) c

/-! ## Monitors -/

/-- How an attempt to count a task went. -/
def verdictOf : Ledger.Recorded → Verdict
  | .counted => .noted
  | .refused _ => .failed
  | .overflow => .panicked

/-- Tells one monitor; the ledger after that, and how it went. -/
def tell (task : TaskId) (key : Fragment.Key) (first : Option OperatorKind) (span : Duration)
    (l : Ledger) : Monitor → Ledger × Verdict
  | .counting =>
    let r := l.record task key first span
    (r.1, verdictOf r.2)
  | .outside verdict => (l, verdict task span)

/-- Tells all monitors about a task.  One that fails or panics keeps nobody from telling the
others. -/
def tellAll (task : TaskId) (key : Fragment.Key) (first : Option OperatorKind) (span : Duration)
    (monitors : List Monitor) (l : Ledger) : Ledger :=
  monitors.foldl (fun l m => (tell task key first span l m).1) l

/-- Tells all monitors that a task has been executed. -/
def observe (c : Cluster) (t : TaskId) (span : Duration) : Cluster :=
  match c.task? t with
  | none => c
  | some task =>
    match task.storage? with
    | none => c
    | some s =>
      { c with ledger := tellAll t s.fragment.key task.firstKind? span c.monitors c.ledger }

end Cluster
end SeriesExec
