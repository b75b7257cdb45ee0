import SeriesExec.Cluster.Tasks

/-!
# Cluster hooks — reacting to changes of the topology

The executor starts a loop for every unit that becomes known, and offers every engine of another
node to the drivers.  This file defines:

* `Cluster.offerEngine` — making an engine ready;
* `Cluster.learnUnit` — starting the loop of a unit;
* `Cluster.unitCalled` and `Cluster.engineCalled` — the calls of hooks.
-/

namespace SeriesExec
namespace Cluster

/-- The hook that keeps the notices. -/
def observerHook : HookId := 0

/-- The hook of the executor. -/
def executorHook : HookId := 1

/-- Makes an engine ready; whether it was not so before. -/
def offerEngine (c : Cluster) (e : StorageEngine) : Except Fault (Cluster × Bool) :=
  if KeyedList.contains e.id c.engines then .ok (c, false)
  else
    match KeyedList.find? e.type c.factories with
    | none => .error (.noDriver e.id e.type)
    | some f =>
      -- With no workers at all nothing that is handed to the engine would ever move.
      (f.build e).map fun driver =>
        (c.putEngine ⟨e.id, driver, max c.config.engineWorkers 1, Queue.empty⟩, true)

/-- Makes an engine ready if it can be made so. -/
def tryEngine (c : Cluster) (e : StorageEngine) : Cluster :=
  match c.offerEngine e with
  | .ok r => r.1
  | .error _ => c

/-- Starts the loop of a unit.  A unit that is known keeps the loop it has, and once the loops have
been stopped no loop is started. -/
def learnUnit (c : Cluster) (u : StorageUnit) : Cluster :=
  if c.isClosed || (c.unit? u.id).isSome then c
  else
    { c with units := c.units ++ [⟨u.id, u.engine, u.isDummy, Queue.empty, .seeking⟩] }

/-- Whether the hooks of the executor still do anything: somebody holds it, or a task that it has
handed to a worker. -/
def isListening (c : Cluster) : Bool :=
  !c.isDropped || !c.running.isEmpty || c.engines.any fun e => !e.2.waiting.isEmpty

def unitCalled (c : Cluster) (call : Call StorageUnit) : Cluster :=
  if call.hook = observerHook then
    { c with notices := c.notices ++ [.unit call.before call.after] }
  else
    -- The executor takes up additions only, no changes and no removals.
    match call.before, call.after with
    | none, some u => if c.isListening then c.learnUnit u else c
    | _, _ => c

def engineCalled (c : Cluster) (call : Call StorageEngine) : Cluster :=
  if call.hook = observerHook then
    { c with notices := c.notices ++
        [.engine (call.before.map StorageEngine.id) (call.after.map StorageEngine.id)] }
  else
    -- The engines of this node are not taken up here: whoever registers them offers them.
    match call.before, call.after with
    | none, some e =>
      if c.isListening && e.createdBy != c.catalog.node then c.tryEngine e else c
    | _, _ => c

/-- Registers an engine in the catalog and calls the hooks. -/
def addEngine (c : Cluster) (e : StorageEngine) : Except Fault Cluster :=
  (c.catalog.addEngine e).map fun r => r.2.foldl engineCalled { c with catalog := r.1 }

/-- Registers a unit in the catalog and calls the hooks. -/
def addUnit (c : Cluster) (u : StorageUnit) : Except Fault Cluster :=
  (c.catalog.addUnit u).map fun r => r.2.foldl unitCalled { c with catalog := r.1 }

end Cluster
end SeriesExec
