import SeriesExec.Error

/-!
# Storage units — the members of a replication group

A unit holds data on one engine.  A group is a master unit and the replicas it lists.  This file
defines:

* `StorageUnit` — a master, a replica, or the dummy unit for data an engine brought along;
* `StorageUnit.addReplica` — attaching a replica to its master;
* `StorageUnit.groupIds` — the names of all members, the master first.
-/

namespace SeriesExec

/-- A member of a replication group. -/
structure StorageUnit where
  id : UnitId
  engine : EngineId
  masterId : UnitId
  isMaster : Bool
  /-- Whether the unit stands for data that was there before the engine joined. -/
  isDummy : Bool
  /-- The replicas that were attached, oldest first. -/
  replicas : List StorageUnit
  deriving Inhabited

namespace StorageUnit

def newMaster (id : UnitId) (engine : EngineId) : StorageUnit :=
  ⟨id, engine, id, true, false, []⟩

def newReplica (id : UnitId) (engine : EngineId) (masterId : UnitId) : StorageUnit :=
  ⟨id, engine, masterId, false, false, []⟩

/-- The number of an engine in decimal, filled up to ten digits with zeros. -/
def paddedEngine (engine : EngineId) : List Char :=
  let digits := Nat.toDigits 10 engine
  List.replicate (10 - digits.length) '0' ++ digits

/-- The unit for the data that an engine brought along. -/
def dummy (engine : EngineId) : StorageUnit :=
  { newMaster ("dummy" ++ String.ofList (paddedEngine engine)) engine with isDummy := true }

/-- The master with one more replica.  A replica must name this master, and must be new to it. -/
def addReplica (master replica : StorageUnit) : Except Fault StorageUnit :=
  if !master.isMaster then .error (.onlyMasterHasReplicas master.id)
  else if replica.isMaster || replica.masterId != master.id then
    .error (.replicaOfOther replica.id master.id)
  else if replica.id == master.id || master.replicas.any (fun r => r.id == replica.id) then
    .error (.replicaTwice replica.id)
  else .ok { master with replicas := master.replicas ++ [replica] }

/-- The names of all members of the group, the master first. -/
def groupIds (u : StorageUnit) : List UnitId :=
  u.masterId :: u.replicas.map StorageUnit.id

end StorageUnit
end SeriesExec
