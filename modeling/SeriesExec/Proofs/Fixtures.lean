import SeriesExec.Proofs.Events

/-!
# Fixtures — what only a shutdown changes

Whether the loops of the units are on, and how many workers the memory stage has, is settled when a
cluster is made.  This file defines:

* `Fixture` — these two;
* `Cluster.Event.keepsOpen` — the event does not shut the cluster down.

Main statements: a cluster that nobody shuts down stays open (`isClosed_of_run?`), and the memory
stage always has a worker (`memoryWorkers_pos`).
-/

namespace SeriesExec

open Traffic

/-- Whether the loops of the units are off, and how many workers the memory stage has. -/
structure Fixture where
  isClosed : Bool
  memoryWorkers : Nat

namespace Cluster

variable {c c' : Cluster}

def fixture (c : Cluster) : Fixture :=
  ⟨c.isClosed, c.memory.workers⟩

theorem fixture_of_traffic_eq {τ : Traffic} (h : c'.traffic = τ) (hclosed : τ.isClosed = c.isClosed)
    (hworkers : τ.memoryWorkers = c.memory.workers) : c'.fixture = c.fixture := by
  subst h
  exact congrArg₂ Fixture.mk hclosed hworkers

theorem fixture_of_traffic (h : c'.traffic = c.traffic) : c'.fixture = c.fixture :=
  fixture_of_traffic_eq h rfl rfl

theorem fixture_of_backdrop (h : c'.backdrop = c.backdrop) : c'.fixture = c.fixture :=
  congrArg (fun b : Backdrop => Fixture.mk b.isClosed b.memory.workers) h

def Request.keepsOpen : Request → Bool
  | .shutdown | .dropExecutor => false
  | _ => true

/-- Whether an event leaves the loops of the units on. -/
def Event.keepsOpen : Event → Bool
  | .asked r => r.keepsOpen
  | .moved _ => true

theorem fixture_handle [PatternLibrary] {r : Request} (hr : r.keepsOpen = true) :
    (c.handle r).1.fixture = c.fixture := by
  unfold handle
  split
  · by_cases hspares : r.sparesTasks = true
    · exact fixture_of_backdrop (backdrop_obey c hspares)
    · by_cases htask : r.isTaskWork = true
      · exact fixture_of_traffic (traffic_obey c htask)
      · cases r with
        | addMemory ts => exact fixture_of_traffic (traffic_foldl_addMemory ts c)
        | startMemory => rfl
        | stopMemory => rfl
        | shutdown => cases hr
        | dropExecutor => cases hr
        | _ => first | exact absurd rfl hspares | exact absurd rfl htask
  · rfl

theorem fixture_reject (c : Cluster) (d : Delivery) (fate : Fate) (e : Error) :
    (c.reject d fate e).fixture = c.fixture :=
  fixture_of_traffic_eq (traffic_reject c d fate e) rfl rfl

theorem fixture_broadcast (c : Cluster) (t : TaskId) : (c.broadcast t).fixture = c.fixture :=
  broadcast_keeps (sendCopy_keeps (fun _ _ _ => rfl)
    fun henqueue => fixture_of_backdrop (backdrop_enqueue henqueue)) c t

variable [PatternLibrary]

theorem fixture_step? {s : Step} (h : c.step? s = some c') : c'.fixture = c.fixture := by
  cases s with
  | resolve u =>
    rcases serve_of_resolve? h with ⟨l, _, _, _, rfl⟩
    rfl
  | giveUp u =>
    rcases resign_of_giveUp? h with ⟨l, _, _, _, rfl⟩
    rfl
  | dispatch u =>
    rcases dispatch_of_dispatch? h with ⟨l, d, rest, _, _, _, _, hdispatch⟩
    cases hdispatch with
    | notReady _ => exact fixture_reject _ d _ _
    | overloaded _ _ _ => exact fixture_reject _ d _ _
    | submitted _ _ _ => rfl
  | start e => exact fixture_of_backdrop (backdrop_start? h)
  | complete id elapsed =>
    rcases completion_of_complete? h with ⟨r, _, hcompletion⟩
    have hclose : (c.close r elapsed).fixture = c.fixture :=
      fixture_of_traffic_eq (traffic_close c r elapsed) rfl rfl
    rw [hcompletion.after]
    split
    · exact (fixture_broadcast _ r.delivery.task).trans hclose
    · exact hclose
  | admitMemory => exact fixture_of_traffic (traffic_admitMemory? h)
  | startMemory => exact fixture_of_traffic (traffic_startMemory? h)
  | runMemory t elapsed => exact fixture_of_traffic (traffic_runMemory? h)

/-- What an event leaves alone that does not shut the cluster down. -/
theorem fixture_after? {e : Event} (he : e.keepsOpen = true) (h : c.after? e = some c') :
    c'.fixture = c.fixture := by
  cases e with
  | asked r =>
    injection h with h
    exact h ▸ fixture_handle he
  | moved s => exact fixture_step? h

theorem memoryWorkers_after? {e : Event} (h : c.after? e = some c') :
    c'.memory.workers = c.memory.workers := by
  -- A shutdown turns the loops off, but the workers stay.
  by_cases he : e.keepsOpen = true
  · exact congrArg Fixture.memoryWorkers (fixture_after? he h)
  · rcases e with r | s
    · injection h with h
      subst h
      cases r <;> first | rfl | exact absurd rfl he
    · exact absurd rfl he

omit [PatternLibrary] in
theorem fixture_build (s : Setup) :
    (build s).isClosed = false ∧ (build s).memory.workers = max s.config.memoryWorkers 1 :=
  ⟨congrArg Backdrop.isClosed (backdrop_build s),
    congrArg (fun b : Backdrop => b.memory.workers) (backdrop_build s)⟩

/-- A cluster that nobody shuts down stays open. -/
theorem isClosed_of_run? {s : Setup} {events : List Event}
    (hevents : ∀ e ∈ events, e.keepsOpen = true) (hrun : (build s).run? events = some c) :
    c.isClosed = false :=
  run?_induction (P := fun c => c.isClosed = false)
    (fun he h hafter => (congrArg Fixture.isClosed (fixture_after? he hafter)).trans h)
    hevents (fixture_build s).1 hrun

/-- The memory stage always has a worker. -/
theorem memoryWorkers_pos {s : Setup} {events : List Event}
    (hrun : (build s).run? events = some c) : 0 < c.memory.workers := by
  refine run?_induction (P := fun c => 0 < c.memory.workers) (A := fun _ => True)
    (fun _ h hafter => memoryWorkers_after? hafter ▸ h) (fun _ _ => trivial) ?_ hrun
  rw [(fixture_build s).2]
  exact Nat.lt_of_lt_of_le Nat.zero_lt_one (Nat.le_max_right _ _)

end Cluster
end SeriesExec
