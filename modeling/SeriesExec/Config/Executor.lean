import SeriesExec.Config.Document

/-!
# Executor configuration — sizes and waiting times

This file defines `ExecutorConfig`, its default values, `ExecutorConfig.read` from a document, and
`ExecutorConfig.pollStep`, the waiting time that is really used.
-/

namespace SeriesExec

/-- How the execution layer is set up. -/
structure ExecutorConfig where
  /-- Workers for tasks over rows in memory. -/
  memoryWorkers : Nat
  /-- Workers of each engine. -/
  engineWorkers : Nat
  /-- How many tasks may wait for the workers of an engine before a further one is refused. -/
  maxWaiting : Nat
  /-- The time between two looks for an engine that is not ready. -/
  pollInterval : Duration
  /-- How long to look for an engine before its tasks are refused; `none` is for ever. -/
  pollTimeout : Option Duration
  deriving DecidableEq, Repr

namespace ExecutorConfig

def default : ExecutorConfig :=
  ⟨200, 100, 500, Duration.ofMillis 5, none⟩

instance : Inhabited ExecutorConfig := ⟨default⟩

/-- The shortest time between two looks for an engine. -/
def minPollInterval : Duration := Duration.ofMillis 1

/-- The time between two looks that is used, whatever is configured. -/
def pollStep (c : ExecutorConfig) : Duration :=
  c.pollInterval.max minPollInterval

/-- The names of the settings, in the order of a positional record. -/
def settings : List String :=
  ["memory_task_pool_size", "physical_task_pool_size_per_storage",
   "max_cached_physical_task_per_storage", "storage_poll_interval", "storage_poll_timeout"]

/-- Reads a configuration; every setting that is left out has its default. -/
def read (d : Document) : Except ConfigError ExecutorConfig := do
  let fields ← d.fields settings
  let memoryWorkers ← Document.optional Document.readWord default.memoryWorkers fields
    "memory_task_pool_size"
  let engineWorkers ← Document.optional Document.readWord default.engineWorkers fields
    "physical_task_pool_size_per_storage"
  let maxWaiting ← Document.optional Document.readWord default.maxWaiting fields
    "max_cached_physical_task_per_storage"
  let pollInterval ← Document.optional Document.readDuration default.pollInterval fields
    "storage_poll_interval"
  let pollTimeout ← Document.optional (Document.readOption Document.readDuration)
    default.pollTimeout fields "storage_poll_timeout"
  return ⟨memoryWorkers, engineWorkers, maxWaiting, pollInterval, pollTimeout⟩

end ExecutorConfig
end SeriesExec
