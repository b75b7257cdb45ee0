import SeriesExec.Config.Executor
import SeriesExec.Topology.StorageEngine

/-!
# Server configuration — the whole of a node

This file defines `StorageEngine.read`, `UnitConfig`, `TopologyConfig` and `ServerConfig`, each
with its reader, and `UnitConfig.unit`, the unit that an entry describes.
-/

namespace SeriesExec

namespace StorageEngine

def settings : List String :=
  ["id", "ip", "port", "engine_type", "schema_prefix", "has_data", "created_by", "extra_params"]

/-- Reads an engine; what it is and where must be given. -/
def read (d : Document) : Except ConfigError StorageEngine := do
  let fields ← d.fields settings
  let id ← Document.required Document.readWord fields "id"
  let host ← Document.required Document.readText fields "ip"
  let port ← Document.required (Document.readNat UInt16.size) fields "port"
  let type ← Document.required Document.readText fields "engine_type"
  let schemaHead ← Document.optional (Document.readOption Document.readText) none fields
    "schema_prefix"
  let hasData ← Document.optional Document.readBool false fields "has_data"
  let createdBy ← Document.optional Document.readWord 0 fields "created_by"
  let parameters ← Document.optional Document.readTags Tags.empty fields "extra_params"
  return ⟨id, host, port, type, schemaHead, hasData, createdBy, parameters⟩

end StorageEngine

/-- A unit as the configuration lists it; one without a master is a master. -/
structure UnitConfig where
  id : UnitId
  engine : EngineId
  masterId : Option UnitId
  deriving DecidableEq, Repr, Inhabited

namespace UnitConfig

def read (d : Document) : Except ConfigError UnitConfig := do
  let fields ← d.fields ["id", "storage_engine_id", "master_id"]
  let id ← Document.required Document.readText fields "id"
  let engine ← Document.required Document.readWord fields "storage_engine_id"
  let masterId ← Document.optional (Document.readOption Document.readText) none fields "master_id"
  return ⟨id, engine, masterId⟩

/-- The unit that the entry describes. -/
def unit (c : UnitConfig) : StorageUnit :=
  match c.masterId with
  | some master => StorageUnit.newReplica c.id c.engine master
  | none => StorageUnit.newMaster c.id c.engine

end UnitConfig

/-- The cluster that a node starts with. -/
structure TopologyConfig where
  node : Nat
  engines : List StorageEngine
  /-- Masters are listed before their replicas. -/
  units : List UnitConfig
  deriving DecidableEq, Inhabited

namespace TopologyConfig

def default : TopologyConfig := ⟨0, [], []⟩

def read (d : Document) : Except ConfigError TopologyConfig := do
  let fields ← d.fields ["node_id", "storage_engines", "storage_units"]
  let node ← Document.optional Document.readWord default.node fields "node_id"
  let engines ← Document.optional (Document.readList StorageEngine.read) default.engines fields
    "storage_engines"
  let units ← Document.optional (Document.readList UnitConfig.read) default.units fields
    "storage_units"
  return ⟨node, engines, units⟩

end TopologyConfig

/-- The configuration of a node. -/
structure ServerConfig where
  logLevel : String
  workerThreads : Nat
  /-- Whether reads may go to replicas, or all to the master. -/
  readFromReplicas : Bool
  executor : ExecutorConfig
  topology : TopologyConfig
  deriving DecidableEq, Inhabited

namespace ServerConfig

def default : ServerConfig :=
  ⟨"info", 4, false, ExecutorConfig.default, TopologyConfig.default⟩

def read (d : Document) : Except ConfigError ServerConfig := do
  let fields ← d.fields
    ["log_level", "worker_threads", "read_from_replicas", "executor", "topology"]
  let logLevel ← Document.optional Document.readText default.logLevel fields "log_level"
  let workerThreads ← Document.optional Document.readWord default.workerThreads fields
    "worker_threads"
  let readFromReplicas ← Document.optional Document.readBool default.readFromReplicas fields
    "read_from_replicas"
  let executor ← Document.optional ExecutorConfig.read default.executor fields "executor"
  let topology ← Document.optional TopologyConfig.read default.topology fields "topology"
  return ⟨logLevel, workerThreads, readFromReplicas, executor, topology⟩

end ServerConfig
end SeriesExec
