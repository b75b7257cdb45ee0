import SeriesExec.Topology.StorageEngine

/-!
# Catalog — the registered engines and units

The catalog knows the engines and units of the cluster and calls hooks when one is added.  This
file defines:

* `Catalog` — engines and units in the order of their names, and the registered hooks;
* `Call` — one call of a hook, with the object before and after a change;
* `Catalog.addEngine` and `Catalog.addUnit` — the checked registrations, each with the calls that
  it causes;
* `Catalog.announceUnit` and `Catalog.announceEngine` — the calls for a change seen elsewhere.
-/

namespace SeriesExec

/-- Hooks are numbered in the order in which they were registered. -/
abbrev HookId := Nat

/-- A call of a hook: an object as it was and as it is. -/
structure Call (α : Type) where
  hook : HookId
  before : Option α
  after : Option α
  deriving Inhabited

/-- What is registered in the cluster, seen from one node. -/
structure Catalog where
  node : Nat
  engines : List (EngineId × StorageEngine)
  units : List (UnitId × StorageUnit)
  unitHooks : List HookId
  engineHooks : List HookId
  deriving Inhabited

namespace Catalog

def empty (node : Nat) : Catalog := ⟨node, [], [], [], []⟩

/-- The catalog with a hook for units and engines. -/
def addHook (c : Catalog) (hook : HookId) : Catalog :=
  { c with unitHooks := c.unitHooks ++ [hook], engineHooks := c.engineHooks ++ [hook] }

def unit? (c : Catalog) (id : UnitId) : Option StorageUnit :=
  KeyedList.find? id c.units

/-- The registered engines by ascending number. -/
def engineList (c : Catalog) : List StorageEngine :=
  c.engines.map Prod.snd

/-- One call for each unit hook. -/
def announceUnit (c : Catalog) (before after : Option StorageUnit) : List (Call StorageUnit) :=
  c.unitHooks.map fun hook => ⟨hook, before, after⟩

/-- One call for each engine hook. -/
def announceEngine (c : Catalog) (before after : Option StorageEngine) :
    List (Call StorageEngine) :=
  c.engineHooks.map fun hook => ⟨hook, before, after⟩

def addEngine (c : Catalog) (e : StorageEngine) :
    Except Fault (Catalog × List (Call StorageEngine)) :=
  if KeyedList.contains e.id c.engines then .error (.engineExists e.id)
  else .ok ({ c with engines := KeyedList.insert e.id e c.engines },
    c.announceEngine none (some e))

/-- The units after a new one has been attached to its master, if it is a replica. -/
def attach (units : List (UnitId × StorageUnit)) (u : StorageUnit) :
    Except Fault (List (UnitId × StorageUnit)) :=
  if u.isMaster then .ok units
  else
    match KeyedList.find? u.masterId units with
    | none => .error (.masterMissing u.id)
    -- Units are values, so the grown master takes the place of the old one.
    | some master => (master.addReplica u).map fun m => KeyedList.insert u.masterId m units

/-- Registers a unit.  Its engine must be known and, for a replica, its master too. -/
def addUnit (c : Catalog) (u : StorageUnit) :
    Except Fault (Catalog × List (Call StorageUnit)) :=
  if KeyedList.contains u.id c.units then .error (.unitExists u.id)
  else if !KeyedList.contains u.engine c.engines then
    .error (.engineOfUnitMissing u.id u.engine)
  else
    (attach c.units u).map fun units =>
      ({ c with units := KeyedList.insert u.id u units }, c.announceUnit none (some u))

end Catalog
end SeriesExec
