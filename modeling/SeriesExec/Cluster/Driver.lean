import SeriesExec.Config.Executor
import SeriesExec.Store.Execution
import SeriesExec.Topology.StorageEngine

/-!
# Drivers — what executes the tasks of an engine

An engine is served either by a store in memory or by an outside driver.  What an outside driver
answers is laid down in a script, so every sequence of answers, failures, panics and waits is the
behaviour of some script.  This file defines:

* `Outcome` — how a call of a driver ends;
* `Script` — the answers of an outside driver, and the calls it has had;
* `Driver` — what serves an engine;
* `Factory` — what makes the driver of an engine, by the type of the engine.
-/

namespace SeriesExec

/-- How a call of a driver ends. -/
inductive Outcome where
  | answer (r : TaskResult)
  | panicked
  deriving Inhabited

/-- The result of a task whose driver ended in this way: every error is told as a failure of the
execution. -/
def Outcome.result : Outcome → TaskResult
  | .answer (.ok o) => .ok o
  | .answer (.error e) => .error (if e.kind = .execution then e else .execution e)
  | .panicked => .error (.execution (.fault .driverPanicked))

theorem Outcome.result_answer_eq_ok_iff {r : TaskResult} {o : Output} :
    (answer r).result = .ok o ↔ r = .ok o := by
  cases r with
  | ok o' => exact Iff.rfl
  | error e => exact iff_of_false nofun nofun

/-- A driver that fails to execute is quoted, and any other error of a driver is wrapped. -/
theorem Outcome.result_answer_eq_error_iff {r : TaskResult} {e : Error} :
    (answer r).result = .error e ↔
      (e.kind = .execution ∧ r = .error e) ∨
        ∃ cause, cause.kind ≠ .execution ∧ r = .error cause ∧ e = .execution cause := by
  cases r with
  | ok o => simp [result]
  | error e' =>
    rw [result]
    split
    · rename_i hkind
      constructor
      · intro h
        obtain rfl : e' = e := Except.error.inj h
        exact .inl ⟨hkind, rfl⟩
      · rintro (⟨_, h⟩ | ⟨cause, hcause, h, _⟩)
        · exact h
        · exact absurd (Except.error.inj h ▸ hkind) hcause
    · rename_i hkind
      constructor
      · intro h
        exact .inr ⟨e', hkind, rfl, (Except.error.inj h).symm⟩
      · rintro (⟨he, h⟩ | ⟨cause, _, h, rfl⟩)
        · exact absurd (Except.error.inj h ▸ he) hkind
        · rw [Except.error.inj h]

/-- One answer of an outside driver. -/
structure ScriptEntry where
  /-- Whether the call first waits for a permit. -/
  gated : Bool
  outcome : Outcome
  deriving Inhabited

/-- A call that a driver has had. -/
structure DriverCall where
  task : TaskId
  unit : Option UnitId
  onDummy : Bool
  deriving DecidableEq, Repr, Inhabited

/-- An outside driver: the `n`-th call is answered by the `n`-th entry, and by nothing to hand on
once the entries are used up. -/
structure Script where
  entries : List ScriptEntry
  series : List Series
  /-- The error of a listing, if listings fail. -/
  seriesError : Option Error
  calls : List DriverCall
  /-- Permits that no call has taken. -/
  permits : Nat
  deriving Inhabited

namespace Script

def new (entries : List ScriptEntry) (series : List Series) (seriesError : Option Error) :
    Script :=
  ⟨entries, series, seriesError, [], 0⟩

/-- The answer to the next call. -/
def nextEntry (s : Script) : ScriptEntry :=
  s.entries[s.calls.length]?.getD ⟨false, .answer (.ok .done)⟩

/-- Whether the next call has to wait for a permit. -/
def nextWaits (s : Script) : Bool :=
  s.nextEntry.gated && s.permits == 0

/-- The script after one more call. -/
def take (s : Script) (call : DriverCall) : Script :=
  { s with
    calls := s.calls ++ [call]
    -- Without a permit there is nothing to take, and the call waits.
    permits := if s.nextEntry.gated then s.permits - 1 else s.permits }

/-- The series that the driver tells. -/
def listSeries (s : Script) : Except Error (List Series) :=
  match s.seriesError with
  | some e => .error e
  | none => .ok s.series

end Script

/-- What serves an engine.  All engines of one type share one script. -/
inductive Driver where
  | store (s : Store)
  | scripted (type : String)
  deriving Inhabited

/-- What makes drivers. -/
inductive Factory where
  | store
  | scripted (s : Script)
  /-- A factory that never succeeds. -/
  | broken
  deriving Inhabited

namespace Factory

/-- The type of the engines that a store serves. -/
def storeType : String := "memory"

/-- The driver for an engine. -/
def build (f : Factory) (e : StorageEngine) : Except Fault Driver :=
  match f with
  | store =>
    if e.type = storeType then .ok (.store Store.empty)
    else .error (.foreignEngineType e.id e.type)
  | scripted _ => .ok (.scripted e.type)
  | broken => .error (.text ("broken factory, id:" ++ toString e.id))

end Factory
end SeriesExec
