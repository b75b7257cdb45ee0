import SeriesExec.Cluster.Hooks
import SeriesExec.Cluster.Listing
import SeriesExec.Replica.Affinity

/-!
# Cluster requests — what can be asked of a cluster

This file defines:

* `Cluster.Request` and `Cluster.Reply` — everything that can be asked for, and the answers;
* `Cluster.fits` — whether a request is about tasks of the right kinds;
* `Cluster.handle` — the immediate effect of a request, and its answer;
* `Cluster.Setup` and `Cluster.build` — a new cluster;
* `Cluster.launch` — a new cluster with any factories, to whose drivers any engines are offered.

What follows from a request once it is answered is left to the loops and workers.
-/

namespace SeriesExec
namespace Cluster

/-- What can be asked of a cluster. -/
inductive Request where
  | addEngine (e : StorageEngine)
  | addUnit (u : StorageUnit)
  /-- A change that the catalog was told by others. -/
  | notifyUnit (before after : Option StorageUnit)
  | notifyEngine (before after : Option StorageEngine)
  | takeNotices
  | offerEngine (e : StorageEngine)
  /-- Calls a driver past all queues. -/
  | callDriver (e : EngineId) (t : TaskId)
  | newStorage (operators : List Operator) (fragment : Fragment) (isSync broadcasts : Bool)
      (session : Option UInt64)
  | newSource (operators : List Operator) (source : RowStream)
  | newGlobal (operator : Operator)
  | copyTask (t : TaskId)
  | follow (operators : List Operator) (parents : List TaskId)
  | setFollower (t follower : TaskId)
  | notifyParent (t : TaskId)
  | execute (t : TaskId)
  | setResult (t : TaskId) (r : TaskResult)
  | setSpan (t : TaskId) (d : Duration)
  | commit (t : TaskId)
  | commitTo (t : TaskId) (u : UnitId)
  | commitAll (ts : List TaskId)
  | executeGlobal (t : TaskId)
  | addMemory (ts : List TaskId)
  | startMemory
  | stopMemory
  /-- Gives permits to the calls of an outside driver. -/
  | openGate (type : String) (n : Nat)
  | takeStats
  | shutdown
  | dropExecutor
  deriving Inhabited

/-- The answer to a request. -/
inductive Reply where
  | ok
  | refused (e : Error)
  | flag (b : Bool)
  | made (t : TaskId)
  | result (r : TaskResult)
  /-- A driver that was called directly panicked. -/
  | crashed
  | notices (l : List Notice)
  | stats (l : List (Fragment.Key × KindTallies))
  /-- There is nothing of that name, or nothing of that kind. -/
  | unfit
  deriving Inhabited

/-! ## Commits -/

/-- The unit that a task goes to. -/
def route (c : Cluster) (task : Task) (s : StorageShape) : UnitId :=
  match c.router with
  | .master => s.fragment.masterId
  | .affinity => Affinity.unitFor digest task s
  | .fixed u => u

/-- Hands a storage task over to the unit it is routed to. -/
def commit (c : Cluster) (t : TaskId) : Except Error Cluster :=
  match c.task? t with
  -- A request that fits names a storage task, so these two cases do not occur.
  | none => .ok c
  | some task =>
    match task.storage? with
    | none => .ok c
    | some s => c.enqueue (c.route task s) t

/-- Hands tasks over one by one, up to the first whose unit is not known. -/
def commitAll (c : Cluster) : List TaskId → Cluster × Option Error
  | [] => (c, none)
  | t :: rest =>
    match c.commit t with
    | .error e => (c, some e)
    | .ok c' => c'.commitAll rest

/-! ## Followers -/

/-- Why these tasks may not be the parents of a new task; `before` are those already looked at. -/
def followFault (c : Cluster) (before : List TaskId) : List TaskId → Option Fault
  | [] => none
  | p :: rest =>
    if before.contains p then some (.parentTwice p)
    else if ((c.task? p).bind Task.follower).isSome then some (.followerTaken p)
    else c.followFault (before ++ [p]) rest

/-- Makes a task that is fed by others, all of which must be free to take it. -/
def follow (c : Cluster) (operators : List Operator) (parents : List TaskId) :
    Except Fault (Cluster × TaskId) :=
  match c.followFault [] parents with
  | some f => .error f
  | none =>
    let made := c.addTask (Task.newFollower operators parents)
    .ok (parents.foldl (fun c p => c.modifyTask p fun t => t.setFollower made.2) made.1, made.2)

/-- Makes a task the follower of another by hand. -/
def setFollower (c : Cluster) (t follower : TaskId) : Except Fault Cluster :=
  if ((c.task? t).bind Task.follower).isSome then .error (.followerTakenBy t follower)
  else .ok (c.modifyTask t fun task => task.setFollower follower)

/-! ## Drivers -/

/-- Calls the driver of an engine for a task, past all queues. -/
def callDriver [PatternLibrary] (c : Cluster) (s : EngineSite) (t : TaskId) (task : Task) :
    Cluster × Outcome :=
  let shape := task.storage?
  let stamp := shape.bind StorageShape.stamp
  match s.driver with
  | .store store =>
    let r := store.execute t stamp task.operators
    (c.putEngine { s with driver := .store r.1 }, .answer r.2)
  | .scripted type =>
    let script := (c.script? type).getD default
    (c.putScript type (script.take ⟨t, stamp, shape.any StorageShape.onDummy⟩),
      script.nextEntry.outcome)

/-- Whether a call waits at the gate of a type of driver. -/
def isHeldAt (c : Cluster) (type : String) (r : Run) : Bool :=
  r.isHeld && (c.engine? r.engine).any fun s =>
    match s.driver with
    | .scripted other => other == type
    | .store _ => false

/-- Lets `n` of the calls that wait at a gate through, those that came first, and tells how many
permits are left over. -/
def admitHeld (c : Cluster) (type : String) : Nat → List Run → List Run × Nat
  | n, [] => ([], n)
  | 0, runs => (runs, 0)
  | n + 1, r :: rest =>
    if c.isHeldAt type r then
      let later := c.admitHeld type n rest
      ({ r with isHeld := false } :: later.1, later.2)
    else
      let later := c.admitHeld type (n + 1) rest
      (r :: later.1, later.2)

/-- Gives permits to the calls of an outside driver. -/
def openGate (c : Cluster) (type : String) (n : Nat) : Cluster :=
  match c.script? type with
  | none => c
  | some script =>
    let admitted := c.admitHeld type n c.running
    { c with running := admitted.1 }.putScript type
      { script with permits := script.permits + admitted.2 }

/-! ## All requests -/

/-- The answer to a request that may be refused. -/
def orRefused (c : Cluster) : Except Error Cluster → Cluster × Reply
  | .ok c' => (c', .ok)
  | .error e => (c, .refused e)

/-- The same for a cause inside the library. -/
def orFault (c : Cluster) (r : Except Fault Cluster) : Cluster × Reply :=
  match r with
  | .ok c' => (c', .ok)
  | .error f => (c, .refused (.fault f))

/-- Makes a task. -/
def make (c : Cluster) (t : Task) : Cluster × Reply :=
  let made := c.addTask t
  (made.1, .made made.2)

/-- Whether there are the tasks that a request names, and they are of the kinds that it is about. -/
def fits (c : Cluster) : Request → Bool
  | .callDriver _ t => (c.task? t).any Task.isStorage
  | .copyTask t => (c.task? t).any Task.isStorage
  | .follow _ parents => parents.all fun p => (c.task? p).isSome
  | .setFollower t follower => (c.task? t).isSome && (c.task? follower).any Task.isMemory
  | .notifyParent t => (c.task? t).any Task.isMemory
  | .execute t => (c.task? t).any Task.isMemory
  | .setResult t _ => (c.task? t).isSome
  | .setSpan t _ => (c.task? t).isSome
  | .commit t => (c.task? t).any Task.isStorage
  | .commitTo t _ => (c.task? t).any Task.isStorage
  | .commitAll ts => ts.all fun t => (c.task? t).any Task.isStorage
  | .executeGlobal t => (c.task? t).any Task.isGlobal
  | .addMemory ts => ts.all fun t => (c.task? t).any Task.isMemory
  -- The other requests name no task.
  | _ => true

/-- The cluster right after a request that fits, and the answer. -/
def obey [PatternLibrary] (c : Cluster) : Request → Cluster × Reply
  | .addEngine e => c.orFault (c.addEngine e)
  | .addUnit u => c.orFault (c.addUnit u)
  | .notifyUnit before after =>
    ((c.catalog.announceUnit before after).foldl unitCalled c, .ok)
  | .notifyEngine before after =>
    ((c.catalog.announceEngine before after).foldl engineCalled c, .ok)
  | .takeNotices => ({ c with notices := [] }, .notices c.notices)
  | .offerEngine e =>
    match c.offerEngine e with
    | .ok (c', isNew) => (c', .flag isNew)
    | .error f => (c, .refused (.fault f))
  | .callDriver e t =>
    match c.engine? e, c.task? t with
    | some s, some task =>
      match c.callDriver s t task with
      | (c', .answer r) => (c', .result r)
      | (c', .panicked) => (c', .crashed)
    | _, _ => (c, .unfit)
  | .newStorage operators fragment isSync broadcasts session =>
    c.make (Task.newStorage operators fragment isSync broadcasts session)
  | .newSource operators source => c.make (Task.newSource operators source)
  | .newGlobal operator => c.make (Task.newGlobal operator)
  | .copyTask t =>
    match c.task? t with
    | none => (c, .unfit)
    | some task =>
      match task.storage? with
      | none => (c, .unfit)
      | some s => c.make (Task.replicaCopy task.operators s.fragment)
  | .follow operators parents =>
    match c.follow operators parents with
    | .ok (c', t) => (c', .made t)
    | .error f => (c, .refused (.fault f))
  | .setFollower t follower => c.orFault (c.setFollower t follower)
  | .notifyParent t =>
    let r := c.report t
    (r.1, .flag r.2)
  | .execute t =>
    let r := c.executeMemory t
    (r.1, .result r.2)
  | .setResult t r => (c.modifyTask t fun task => task.setResult r, .ok)
  | .setSpan t d => (c.modifyTask t fun task => task.setSpan d, .ok)
  | .commit t => c.orRefused (c.commit t)
  | .commitTo t u => c.orRefused (c.enqueue u t)
  | .commitAll ts =>
    match c.commitAll ts with
    | (c', none) => (c', .ok)
    | (c', some e) => (c', .refused e)
  | .executeGlobal t =>
    match (c.task? t).bind fun task => task.operators.head? with
    | none => (c, .unfit)
    | some op =>
      -- The answer is what is found now; a task that has a result already keeps it.
      let r := c.globalResult op
      (c.modifyTask t fun task => (task.setSpan Duration.zero).setResult r, .result r)
  | .addMemory ts => (ts.foldl addMemory c, .ok)
  | .startMemory => ({ c with memory := { c.memory with isStarted := true } }, .ok)
  | .stopMemory => ({ c with memory := { c.memory with isStarted := false } }, .ok)
  | .openGate type n => (c.openGate type n, .ok)
  | .takeStats =>
    let r := c.ledger.take
    ({ c with ledger := r.1 }, .stats r.2)
  | .shutdown => ({ c with isClosed := true }, .ok)
  | .dropExecutor => ({ c with isClosed := true, isDropped := true }, .ok)

/-- The cluster right after a request, and the answer.  One that does not fit changes nothing. -/
def handle [PatternLibrary] (c : Cluster) (r : Request) : Cluster × Reply :=
  if c.fits r then c.obey r else (c, .unfit)

/-! ## A new cluster -/

/-- What a cluster is made from. -/
structure Setup where
  config : ExecutorConfig
  node : Nat
  /-- Factories besides the one for stores; of two for one type the later counts. -/
  factories : List (String × Factory)
  /-- The registered engines, and whether each is offered to the drivers from the start. -/
  engines : List (StorageEngine × Bool)
  memoryStarted : Bool
  router : Router
  monitors : List Monitor
  deriving Inhabited

/-- A cluster without engines and units. -/
def blank (s : Setup) : Cluster where
  config := s.config
  catalog := (Catalog.empty s.node).addHook observerHook
  -- The setup may have a factory of its own for this type, which then counts.
  factories := KeyedList.ofList ((Factory.storeType, .store) :: s.factories)
  router := s.router
  monitors := s.monitors
  tasks := []
  units := []
  engines := []
  running := []
  finished := []
  accepted := 0
  memory := ⟨s.memoryStarted, max s.config.memoryWorkers 1, Queue.empty, Queue.empty, []⟩
  ledger := Ledger.empty
  isClosed := false
  isDropped := false
  notices := []

/-- Registers an engine, if its number is free. -/
def seedEngine (c : Cluster) (e : StorageEngine) : Cluster :=
  match c.addEngine e with
  | .ok c' => c'
  | .error _ => c

/-- A cluster with its engines, whose executor knows the dummy units of all of them. -/
def build (s : Setup) : Cluster :=
  let seeded := (s.engines.map Prod.fst).foldl seedEngine (blank s)
  let ready := ((s.engines.filter Prod.snd).map Prod.fst).foldl tryEngine seeded
  -- The executor does not hear of what was registered before its hook, so it is told the dummy
  -- units.
  let hooked := { ready with catalog := ready.catalog.addHook executorHook }
  (hooked.catalog.engineList.filterMap StorageEngine.dummyUnit?).foldl learnUnit hooked

/-- A cluster without engines and units that has these factories, whatever the setup says about
them. -/
def bare (s : Setup) (factories : List (String × Factory)) : Cluster :=
  { blank s with factories := KeyedList.ofList factories }

/-- A cluster whose drivers come from these factories and are offered these engines before there is
an executor, whatever the setup says about that. -/
def launch (s : Setup) (factories : List (String × Factory)) (given : List StorageEngine) :
    Cluster :=
  let seeded := (s.engines.map Prod.fst).foldl seedEngine (bare s factories)
  let ready := given.foldl tryEngine seeded
  let hooked := { ready with catalog := ready.catalog.addHook executorHook }
  (hooked.catalog.engineList.filterMap StorageEngine.dummyUnit?).foldl learnUnit hooked

theorem build_eq_launch (s : Setup) : build s =
    launch s ((Factory.storeType, .store) :: s.factories)
      ((s.engines.filter Prod.snd).map Prod.fst) := rfl

end Cluster
end SeriesExec
