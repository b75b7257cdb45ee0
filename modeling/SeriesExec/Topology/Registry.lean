import SeriesExec.Topology.Catalog

/-!
# Registry — registering in place

A node keeps one catalog, which every registration changes write by write, with checks in between.
This file defines:

* `Registry` — the catalog of a node, and all calls of hooks that there have been;
* `Registering` — what works on a registry in place and may stop at a check;
* `Registering.addEngine` and `Registering.addUnit` — the registrations;
* `Registration` — what a node is asked to register, with `Registration.perform`.

Main statements: a registration in place ends as `Catalog.addEngine` or `Catalog.addUnit` says, and
leaves no trace if it stops (`addEngine_eq`, `addUnit_eq`).
-/

namespace SeriesExec

/-- The catalog of a node, and the calls of hooks that its registrations have caused. -/
structure Registry where
  catalog : Catalog
  unitCalls : List (Call StorageUnit)
  engineCalls : List (Call StorageEngine)

/-- What works on a registry in place; where it stops, the registry is left as it is by then. -/
abbrev Registering := ExceptT Fault (StateM Registry)

namespace Registering

def putUnit (id : UnitId) (u : StorageUnit) : Registering Unit :=
  modify fun ρ => { ρ with catalog :=
    { ρ.catalog with units := KeyedList.insert id u ρ.catalog.units } }

def putEngine (e : StorageEngine) : Registering Unit :=
  modify fun ρ => { ρ with catalog :=
    { ρ.catalog with engines := KeyedList.insert e.id e ρ.catalog.engines } }

/-- Calls all hooks for units. -/
def notifyUnit (before after : Option StorageUnit) : Registering Unit :=
  modify fun ρ => { ρ with unitCalls := ρ.unitCalls ++ ρ.catalog.announceUnit before after }

/-- Calls all hooks for engines. -/
def notifyEngine (before after : Option StorageEngine) : Registering Unit :=
  modify fun ρ => { ρ with engineCalls := ρ.engineCalls ++ ρ.catalog.announceEngine before after }

/-- Enters a replica in the list of its master. -/
def attachReplica (u : StorageUnit) : Registering Unit := do
  match (← get).catalog.unit? u.masterId with
  | none => throw (.masterMissing u.id)
  | some master =>
    match master.addReplica u with
    | .error f => throw f
    | .ok grown => putUnit u.masterId grown

def addEngine (e : StorageEngine) : Registering Unit := do
  if KeyedList.contains e.id (← get).catalog.engines then throw (.engineExists e.id)
  putEngine e
  notifyEngine none (some e)

def addUnit (u : StorageUnit) : Registering Unit := do
  let c := (← get).catalog
  if KeyedList.contains u.id c.units then throw (.unitExists u.id)
  if !KeyedList.contains u.engine c.engines then throw (.engineOfUnitMissing u.id u.engine)
  -- The master lists its replica before the replica itself is stored.
  if !u.isMaster then attachReplica u
  putUnit u.id u
  notifyUnit none (some u)

def addUnitHook (hook : HookId) : Registering Unit :=
  modify fun ρ => { ρ with catalog :=
    { ρ.catalog with unitHooks := ρ.catalog.unitHooks ++ [hook] } }

def addEngineHook (hook : HookId) : Registering Unit :=
  modify fun ρ => { ρ with catalog :=
    { ρ.catalog with engineHooks := ρ.catalog.engineHooks ++ [hook] } }

/-- What stops in its first part leaves the second undone. -/
theorem run_bind {α β : Type} (first : Registering α) (second : α → Registering β)
    (ρ : Registry) : (first >>= second).run.run ρ =
      match first.run.run ρ with
      | (.ok a, ρ') => (second a).run.run ρ'
      | (.error f, ρ') => (.error f, ρ') := by
  simp only [ExceptT.run, StateT.run, Bind.bind, ExceptT.bind, ExceptT.mk, StateT.bind]
  rcases first ρ with ⟨result, ρ'⟩
  cases result <;> rfl

theorem addEngine_eq (e : StorageEngine) (ρ : Registry) :
    (addEngine e).run.run ρ =
      match ρ.catalog.addEngine e with
      | .ok (c, calls) => (.ok (), ⟨c, ρ.unitCalls, ρ.engineCalls ++ calls⟩)
      | .error f => (.error f, ρ) := by
  have hchecked : (addEngine e).run.run ρ =
      (if KeyedList.contains e.id ρ.catalog.engines = true then throw (.engineExists e.id)
        else do putEngine e; notifyEngine none (some e) : Registering Unit).run.run ρ := rfl
  rw [hchecked, Catalog.addEngine]
  split <;> rfl

theorem attachReplica_eq (u : StorageUnit) (hu : u.isMaster = false) (ρ : Registry) :
    (attachReplica u).run.run ρ =
      match Catalog.attach ρ.catalog.units u with
      | .ok units => (.ok (), { ρ with catalog := { ρ.catalog with units := units } })
      | .error f => (.error f, ρ) := by
  have hfound : (attachReplica u).run.run ρ =
      (match ρ.catalog.unit? u.masterId with
        | none => throw (.masterMissing u.id)
        | some master =>
          match master.addReplica u with
          | .error f => throw f
          | .ok grown => putUnit u.masterId grown : Registering Unit).run.run ρ := rfl
  rw [hfound, Catalog.attach, hu, if_neg Bool.false_ne_true, Catalog.unit?]
  cases KeyedList.find? u.masterId ρ.catalog.units with
  | none => rfl
  | some master =>
    cases hadd : master.addReplica u with
    | error f => simp only [hadd]; rfl
    | ok grown => simp only [hadd]; rfl

theorem addUnit_eq (u : StorageUnit) (ρ : Registry) :
    (addUnit u).run.run ρ =
      match ρ.catalog.addUnit u with
      | .ok (c, calls) => (.ok (), ⟨c, ρ.unitCalls ++ calls, ρ.engineCalls⟩)
      | .error f => (.error f, ρ) := by
  have hchecked : (addUnit u).run.run ρ =
      (if KeyedList.contains u.id ρ.catalog.units = true then throw (.unitExists u.id)
        else if (!KeyedList.contains u.engine ρ.catalog.engines) = true then
          throw (.engineOfUnitMissing u.id u.engine)
        else if (!u.isMaster) = true then do
          attachReplica u; putUnit u.id u; notifyUnit none (some u)
        else do putUnit u.id u; notifyUnit none (some u) : Registering Unit).run.run ρ := by
    rfl
  rw [hchecked, Catalog.addUnit]
  split
  · rfl
  · split
    · rfl
    · cases hmaster : u.isMaster with
      | true =>
        have hattached : Catalog.attach ρ.catalog.units u = .ok ρ.catalog.units := by
          rw [Catalog.attach, if_pos hmaster]
        rw [hattached]
        rfl
      | false =>
        have hattach := attachReplica_eq u hmaster ρ
        simp only [Bool.not_false, if_true]
        rw [run_bind, hattach]
        cases Catalog.attach ρ.catalog.units u with
        | error f => rfl
        | ok units => rfl

end Registering

/-! ## What a node is asked for -/

/-- What a node is asked to register; units are made as masters or as replicas. -/
inductive Registration where
  | engine (e : StorageEngine)
  | master (id : UnitId) (engine : EngineId)
  | replica (id : UnitId) (engine : EngineId) (masterId : UnitId)
  | unitHook (hook : HookId)
  | engineHook (hook : HookId)
  deriving Inhabited

namespace Registration

/-- The unit that is to be registered. -/
def unit? : Registration → Option StorageUnit
  | .master id e => some (StorageUnit.newMaster id e)
  | .replica id e m => some (StorageUnit.newReplica id e m)
  | _ => none

/-- The engine that is to be registered. -/
def engine? : Registration → Option StorageEngine
  | .engine e => some e
  | _ => none

def perform : Registration → Registering Unit
  | .engine e => .addEngine e
  | .master id e => .addUnit (StorageUnit.newMaster id e)
  | .replica id e m => .addUnit (StorageUnit.newReplica id e m)
  | .unitHook hook => .addUnitHook hook
  | .engineHook hook => .addEngineHook hook

end Registration

/-- What becomes of the catalog, and which hooks are called. -/
def Catalog.register (c : Catalog) :
    Registration → Except Fault (Catalog × List (Call StorageUnit) × List (Call StorageEngine))
  | .engine e => (c.addEngine e).map fun r => (r.1, [], r.2)
  | .master id e => (c.addUnit (StorageUnit.newMaster id e)).map fun r => (r.1, r.2, [])
  | .replica id e m => (c.addUnit (StorageUnit.newReplica id e m)).map fun r => (r.1, r.2, [])
  | .unitHook hook => .ok ({ c with unitHooks := c.unitHooks ++ [hook] }, [], [])
  | .engineHook hook => .ok ({ c with engineHooks := c.engineHooks ++ [hook] }, [], [])

namespace Registry

/-- The registry of a node that knows nothing yet. -/
def fresh (node : Nat) : Registry := ⟨Catalog.empty node, [], []⟩

/-- How a registration ends, and the registry that it leaves. -/
def handle (ρ : Registry) (r : Registration) : Except Fault Unit × Registry :=
  r.perform.run.run ρ

/-- The registry after several registrations, whether they succeed or not. -/
def after (ρ : Registry) (rs : List Registration) : Registry :=
  rs.foldl (fun ρ r => (ρ.handle r).2) ρ

/-- The units whose registration succeeds, in this order. -/
def admitted (ρ : Registry) : List Registration → List StorageUnit
  | [] => []
  | r :: rest =>
    (if (ρ.handle r).1.isOk then r.unit?.toList else []) ++ (ρ.handle r).2.admitted rest

theorem handle_eq (ρ : Registry) (r : Registration) :
    ρ.handle r =
      match ρ.catalog.register r with
      | .ok (c, calls) => (.ok (), ⟨c, ρ.unitCalls ++ calls.1, ρ.engineCalls ++ calls.2⟩)
      | .error f => (.error f, ρ) := by
  cases r with
  | engine e =>
    refine (Registering.addEngine_eq e ρ).trans ?_
    rw [Catalog.register]
    cases ρ.catalog.addEngine e with
    | ok r => simp [Except.map]
    | error f => rfl
  | master id e =>
    refine (Registering.addUnit_eq _ ρ).trans ?_
    rw [Catalog.register]
    cases ρ.catalog.addUnit (StorageUnit.newMaster id e) with
    | ok r => simp [Except.map]
    | error f => rfl
  | replica id e m =>
    refine (Registering.addUnit_eq _ ρ).trans ?_
    rw [Catalog.register]
    cases ρ.catalog.addUnit (StorageUnit.newReplica id e m) with
    | ok r => simp [Except.map]
    | error f => rfl
  | unitHook hook => simp [Catalog.register]; rfl
  | engineHook hook => simp [Catalog.register]; rfl

end Registry
end SeriesExec
