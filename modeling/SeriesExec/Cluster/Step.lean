import SeriesExec.Cluster.Tasks
import SeriesExec.Numeric.Total

/-!
# Cluster steps — what moves without being asked

This file defines:

* `Cluster.Step` — the moves of loops and workers;
* `Cluster.step?` — the cluster after a move, if the move is possible;
* `Cluster.work` — how much there is left to do at most, which every move is meant to reduce.

The order of the moves is open: any move that is possible may come next.
-/

namespace SeriesExec
namespace Cluster

/-- A move of a loop or a worker. -/
inductive Step where
  /-- The loop of a unit finds its engine. -/
  | resolve (unit : UnitId)
  /-- The loop of a unit has looked for its engine long enough. -/
  | giveUp (unit : UnitId)
  /-- The loop of a unit takes the first delivery of its queue. -/
  | dispatch (unit : UnitId)
  /-- A worker of an engine takes the first waiting delivery and calls the driver. -/
  | start (engine : EngineId)
  /-- The call for a delivery has come back, after a time. -/
  | complete (delivery : Nat) (elapsed : Duration)
  /-- The memory loop hands its first task to the workers. -/
  | admitMemory
  /-- A memory worker takes the first waiting task. -/
  | startMemory
  /-- A memory worker runs its task, which takes a time. -/
  | runMemory (task : TaskId) (elapsed : Duration)
  deriving DecidableEq, Repr, Inhabited

/-! ## Loops -/

def resolve? (c : Cluster) (u : UnitId) : Option Cluster :=
  match c.unit? u with
  | none => none
  | some l =>
    if !c.isClosed && l.phase == .seeking && (c.engine? l.engine).isSome then
      some (c.modifyUnit u fun l => { l with phase := .serving })
    else none

def giveUp? (c : Cluster) (u : UnitId) : Option Cluster :=
  match c.unit? u with
  | none => none
  | some l =>
    if !c.isClosed && l.phase == .seeking && (c.engine? l.engine).isNone &&
        c.config.pollTimeout.isSome then
      some (c.modifyUnit u fun l => { l with phase := .resigned })
    else none

/-- Ends a delivery without calling a driver. -/
def reject (c : Cluster) (d : Delivery) (fate : Fate) (e : Error) : Cluster :=
  let c' := c.settleTask d.task (.error e)
  { c' with finished := c'.finished ++ [⟨d, fate, .error e⟩] }

/-- Hands a delivery to the workers of an engine. -/
def submit (c : Cluster) (s : EngineSite) (d : Delivery) : Cluster :=
  c.putEngine { s with waiting := s.waiting.push d }

/-- Decides about a delivery that a loop has taken: the engine must be ready, and the deliveries
that wait for its workers must not be too many already. -/
def decideDelivery (c : Cluster) (l : UnitLoop) (d : Delivery) : Cluster :=
  match c.engine? l.engine with
  | none => c.reject d .notReady (.engineNotReady l.engine)
  | some s =>
    let c' := c.modifyUnit l.id fun l => { l with phase := .serving }
    -- Only the deliveries that wait already are counted, so one more than the limit may come to
    -- wait.
    if c.config.maxWaiting < s.waiting.size then
      c'.reject d .overloaded
        (.tooManyTasks l.engine l.id s.waiting.size c.config.maxWaiting)
    else c'.submit s d

def dispatch? (c : Cluster) (u : UnitId) : Option Cluster :=
  match c.unit? u with
  | none => none
  | some l =>
    if c.isClosed || l.phase == .seeking then none
    else
      match l.queue.pop? with
      | none => none
      | some (d, rest) =>
        -- The task is stamped before anything is decided, and keeps the stamp if the delivery is
        -- refused.
        let c' := (c.modifyUnit u fun l => { l with queue := rest }).modifyTask d.task
          fun t => t.stampUnit l.id l.isDummy
        some (c'.decideDelivery l d)

/-! ## Workers of engines -/

variable [PatternLibrary]

/-- Calls the driver of an engine for a delivery. -/
def call (c : Cluster) (s : EngineSite) (d : Delivery) (task : Task) : Cluster :=
  let shape := task.storage?
  let stamp := shape.bind StorageShape.stamp
  match s.driver with
  | .store store =>
    let r := store.execute d.task stamp task.operators
    let c' := c.putEngine { s with driver := .store r.1 }
    { c' with running := c'.running ++ [⟨d, s.id, .answer r.2, false⟩] }
  | .scripted type =>
    let script := (c.script? type).getD default
    -- The script moves on when the call begins, also if the call then waits for a permit.
    let c' := c.putScript type (script.take ⟨d.task, stamp, shape.any StorageShape.onDummy⟩)
    { c' with running := c'.running ++ [⟨d, s.id, script.nextEntry.outcome, script.nextWaits⟩] }

def start? (c : Cluster) (e : EngineId) : Option Cluster :=
  match c.engine? e with
  | none => none
  | some s =>
    if c.busy e < s.workers then
      match s.waiting.pop? with
      | none => none
      | some (d, rest) =>
        let s' := { s with waiting := rest }
        some ((c.putEngine s').call s' d ((c.task? d.task).getD default))
    else none

/-- What a worker does once the driver has answered: the monitors are told, the result is set, the
follower is released, and copies are made of a task that has succeeded. -/
def conclude (c : Cluster) (d : Delivery) (r : TaskResult) (elapsed : Duration) : Cluster :=
  -- The monitors hear of the task whatever the driver has answered.
  let c₁ := (c.observe d.task elapsed).modifyTask d.task fun t => t.setSpan elapsed
  let c₂ := c₁.settleTask d.task r
  let c₃ := { c₂ with finished := c₂.finished ++ [⟨d, .executed, r⟩] }
  if (c₃.task? d.task).any Task.broadcasts && r.isOk then c₃.broadcast d.task else c₃

def complete? (c : Cluster) (d : Nat) (elapsed : Duration) : Option Cluster :=
  match c.running.find? fun r => r.delivery.id == d with
  | none => none
  | some r =>
    if r.isHeld then none
    else
      some ({ c with running := c.running.filter fun r => r.delivery.id != d }.conclude r.delivery
        r.outcome.result elapsed)

/-! ## Memory stage -/

def admitMemory? (c : Cluster) : Option Cluster :=
  if c.memory.isStarted then
    match c.memory.queue.pop? with
    | none => none
    | some (t, rest) =>
      some { c with memory :=
        { c.memory with queue := rest, waiting := c.memory.waiting.push t } }
  else none

def startMemory? (c : Cluster) : Option Cluster :=
  if c.memory.running.length < c.memory.workers then
    match c.memory.waiting.pop? with
    | none => none
    | some (t, rest) =>
      some { c with memory :=
        { c.memory with waiting := rest, running := c.memory.running ++ [t] } }
  else none

/-- A memory worker runs its task.  If that releases the follower, the worker goes on with it. -/
def runMemory? (c : Cluster) (t : TaskId) (elapsed : Duration) : Option Cluster :=
  if c.memory.running.contains t then
    let ran := c.executeMemory t
    let c₁ := ran.1.modifyTask t fun task => (task.setSpan elapsed).setResult ran.2
    let released := c₁.release t
    -- A follower that is released passes no queue: this worker runs it next.
    let c₂ := released.1
    some { c₂ with memory :=
      { c₂.memory with running := c₂.memory.running.erase t ++ released.2.toList } }
  else none

/-! ## All moves -/

/-- The cluster after a move, if the move is possible. -/
def step? (c : Cluster) : Step → Option Cluster
  | .resolve u => c.resolve? u
  | .giveUp u => c.giveUp? u
  | .dispatch u => c.dispatch? u
  | .start e => c.start? e
  | .complete d elapsed => c.complete? d elapsed
  | .admitMemory => c.admitMemory?
  | .startMemory => c.startMemory?
  | .runMemory t elapsed => c.runMemory? t elapsed

/-- How many copies the end of a task may cause. -/
def copies (c : Cluster) (t : TaskId) : Nat :=
  match c.task? t with
  | none => 0
  | some task =>
    match task.storage? with
    | none => 0
    | some s => if task.broadcasts then s.fragment.master.groupIds.length else 0

/-- How many moves deliveries may still cause that are `moves` moves from their end. -/
def deliveryWork (c : Cluster) (moves : Nat) (ds : List Delivery) : Nat :=
  totalOf (fun d => moves + 3 * c.copies d.task) ds

/-- An upper bound for the number of moves until nothing moves any more. -/
def work (c : Cluster) : Nat :=
  -- A delivery in the queue of its unit has three moves before it: dispatch, start and complete. A
  -- task that still waits for parents may yet come to the memory stage, and has three as well.
  totalOf (fun l => c.deliveryWork 3 l.queue.items + if l.phase = .seeking then 1 else 0)
    c.units +
  totalOf (fun e => c.deliveryWork 2 e.2.waiting.items) c.engines +
  c.deliveryWork 1 (c.running.map Run.delivery) +
  3 * c.tasks.countP Task.awaitsParents +
  3 * c.memory.queue.size + 2 * c.memory.waiting.size + c.memory.running.length

end Cluster
end SeriesExec
