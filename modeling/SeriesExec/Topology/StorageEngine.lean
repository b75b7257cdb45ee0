import SeriesExec.Topology.StorageUnit

/-!
# Storage engines — where units live

This file defines `StorageEngine`, what is known of an engine, and `StorageEngine.dummyUnit?`, the
unit for the data that it brought along.
-/

namespace SeriesExec

/-- A storage engine as the catalog knows it. -/
structure StorageEngine where
  id : EngineId
  host : String
  port : Nat
  /-- The type of driver that serves the engine. -/
  type : String
  /-- What is put in front of the paths of its series, with a dot between. -/
  schemaHead : Option String
  /-- Whether it held data before it joined. -/
  hasData : Bool
  /-- The node that registered it. -/
  createdBy : Nat
  parameters : Tags
  deriving DecidableEq, Inhabited

namespace StorageEngine

/-- An engine on the local host that brings nothing along. -/
def plain (id : EngineId) (type : String) : StorageEngine :=
  ⟨id, "127.0.0.1", 0, type, none, false, 0, Tags.empty⟩

def dummyUnit? (e : StorageEngine) : Option StorageUnit :=
  if e.hasData then some (StorageUnit.dummy e.id) else none

end StorageEngine
end SeriesExec
