import SeriesExec.Proofs.Events

/-!
# Settled — what is left once nothing moves

Steps are possible only for the units, engines, deliveries and memory tasks that a cluster has, so
looking at those tells whether it has settled.  This file defines `Cluster.isStill`, that look, and
`Cluster.MemoryRests`, which says that just the memory stage has settled.

Main statements: a cluster is settled exactly if it is still (`isSettled_iff_isStill`), so this can
be decided; what is unfinished in a settled cluster is blocked (`blocked_of_settled`), and its
memory stage is empty if it is on (`MemoryRests.items`, `staged_of_settled`).
-/

namespace SeriesExec

open Traffic

namespace Cluster

variable {c c' : Cluster}

/-! ## Deciding it -/

/-- Whether no step is possible for anything that the cluster has. -/
def isStill [PatternLibrary] (c : Cluster) : Bool :=
  (c.units.all fun l =>
    (c.resolve? l.id).isNone && (c.giveUp? l.id).isNone && (c.dispatch? l.id).isNone) &&
  (c.engines.all fun e => (c.start? e.1).isNone) &&
  (c.running.all fun r => (c.complete? r.delivery.id Duration.zero).isNone) &&
  c.admitMemory?.isNone && c.startMemory?.isNone && c.memory.running.isEmpty

theorem complete?_isNone (c : Cluster) (d : Nat) (elapsed elapsed' : Duration) :
    (c.complete? d elapsed).isNone = (c.complete? d elapsed').isNone := by
  unfold complete?
  split
  · rfl
  · split <;> rfl

theorem isSettled_iff_isStill [PatternLibrary] (c : Cluster) : c.IsSettled ↔ c.isStill = true := by
  simp only [isStill, Bool.and_eq_true, List.all_eq_true, Option.isNone_iff_eq_none,
    List.isEmpty_iff]
  constructor
  · intro h
    refine ⟨⟨⟨⟨⟨fun l _ => ⟨⟨h (.resolve l.id), h (.giveUp l.id)⟩, h (.dispatch l.id)⟩,
      fun e _ => h (.start e.1)⟩, fun r _ => h (.complete r.delivery.id Duration.zero)⟩,
      h .admitMemory⟩, h .startMemory⟩, ?_⟩
    -- Of the memory workers it is enough to ask one, at any time that a run may take.
    by_contra hrunning
    rcases List.exists_cons_of_ne_nil hrunning with ⟨t, rest, hitems⟩
    have hnone := h (.runMemory t Duration.zero)
    simp [step?, runMemory?, hitems] at hnone
  · rintro ⟨⟨⟨⟨⟨hunits, hengines⟩, hrunning⟩, hadmit⟩, hstart⟩, hmemory⟩ s
    cases s with
    | resolve u =>
      cases hl : c.unit? u with
      | none => simp [step?, resolve?, hl]
      | some l => exact id_of_unit? hl ▸ (hunits l (mem_units_of_unit? hl)).1.1
    | giveUp u =>
      cases hl : c.unit? u with
      | none => simp [step?, giveUp?, hl]
      | some l => exact id_of_unit? hl ▸ (hunits l (mem_units_of_unit? hl)).1.2
    | dispatch u =>
      cases hl : c.unit? u with
      | none => simp [step?, dispatch?, hl]
      | some l => exact id_of_unit? hl ▸ (hunits l (mem_units_of_unit? hl)).2
    | start e =>
      cases hs : c.engine? e with
      | none => simp [step?, start?, hs]
      | some s => exact hengines (e, s) (KeyedList.mem_of_find? hs)
    | complete d elapsed =>
      -- How long a call takes makes no difference to whether it can come back.
      rw [step?, ← Option.isNone_iff_eq_none, complete?_isNone c d elapsed Duration.zero,
        Option.isNone_iff_eq_none]
      cases hr : c.running.find? (fun r => r.delivery.id == d) with
      | none => simp [complete?, hr]
      | some r =>
        have hid := List.find?_some hr
        exact eq_of_beq hid ▸ hrunning r (List.mem_of_find?_eq_some hr)
    | admitMemory => exact hadmit
    | startMemory => exact hstart
    | runMemory t elapsed => simp [step?, runMemory?, hmemory]

instance [PatternLibrary] (c : Cluster) : Decidable c.IsSettled :=
  decidable_of_iff _ (isSettled_iff_isStill c).symm

/-! ## What is left -/

theorem unit?_of_mem (hnodup : (c.units.map UnitLoop.id).Nodup) {l : UnitLoop} (hl : l ∈ c.units) :
    c.unit? l.id = some l :=
  find?_of_nodup_map hnodup hl

variable [PatternLibrary]

/-- A driver that has answered is not left waiting for its worker. -/
theorem isHeld_of_settled (h : c.Sound) (hsettled : c.IsSettled) {r : Run} (hr : r ∈ c.running) :
    r.isHeld = true := by
  have hnodup : (c.running.map fun q => q.delivery.id).Nodup := by
    have hunderway := h.underway_nodup
    rwa [underway, List.map_map] at hunderway
  have hfind : c.running.find? (fun q => q.delivery.id == r.delivery.id) = some r :=
    find?_of_nodup_map hnodup hr
  by_contra hheld
  have hnone := hsettled (.complete r.delivery.id Duration.zero)
  simp [step?, complete?, hfind, hheld] at hnone

/-- The loop of a unit whose engine is ready leaves nothing in the queue. -/
theorem queue_of_settled (h : c.Sound) (hopen : c.isClosed = false) (hsettled : c.IsSettled)
    {l : UnitLoop} (hl : l ∈ c.units) {site : EngineSite}
    (hsite : c.engine? l.engine = some site) : l.queue.items = [] := by
  have hfind := unit?_of_mem h.orderly.unitsNodup hl
  -- A loop that still looked for its engine would find it.
  have hphase : l.phase ≠ .seeking := by
    intro hphase
    have hnone := hsettled (.resolve l.id)
    simp [step?, resolve?, hfind, hopen, hphase, hsite] at hnone
  by_contra hqueue
  rcases List.exists_cons_of_ne_nil hqueue with ⟨d, rest, hitems⟩
  have hnone := hsettled (.dispatch l.id)
  simp [step?, dispatch?, hfind, hopen, hphase, Queue.pop?, hitems] at hnone

/-- The workers of an engine at which a delivery waits are all busy. -/
theorem busy_of_settled (h : c.Sound) (hsettled : c.IsSettled) {e : EngineId} {site : EngineSite}
    (hsite : c.engine? e = some site) {d : Delivery} (hd : d ∈ site.waiting.items) :
    c.busy e = site.workers := by
  have hmem : (e, site) ∈ c.engines := KeyedList.mem_of_find? hsite
  refine Nat.le_antisymm (h.orderly.busyLe _ hmem) (Nat.le_of_not_lt ?_)
  intro hfree
  rcases List.exists_cons_of_ne_nil (List.ne_nil_of_mem hd) with ⟨d', rest, hitems⟩
  have hnone := hsettled (.start e)
  simp [step?, start?, hsite, hfree, Queue.pop?, hitems] at hnone

/-- What has come to an engine is over once nothing moves, or its driver has not answered, or it
waits while all workers of the engine are with such drivers. -/
theorem blocked_of_handed (h : c.Sound) (hsettled : c.IsSettled) {d : Delivery}
    (hd : d ∈ c.traffic.handed) :
    d ∈ c.traffic.past ∨ (∃ r ∈ c.running, r.delivery = d ∧ r.isHeld) ∨
      ∃ e site, c.engine? e = some site ∧ d ∈ site.waiting.items ∧ c.busy e = site.workers ∧
        ∀ r ∈ c.running, r.engine = e → r.isHeld := by
  rcases mem_handed.mp hd with hd | hd | hd
  · obtain ⟨e, he, hitem⟩ := List.mem_flatMap.mp hd
    have hfind : c.engine? e.1 = some e.2 := KeyedList.find?_of_mem h.orderly.enginesSorted he
    exact .inr (.inr ⟨e.1, e.2, hfind, hitem, busy_of_settled h hsettled hfind hitem,
      fun r hr _ => isHeld_of_settled h hsettled hr⟩)
  · obtain ⟨r, hr, hdelivery⟩ := List.mem_map.mp hd
    exact .inr (.inl ⟨r, hr, hdelivery, isHeld_of_settled h hsettled hr⟩)
  · exact .inl hd

/-- An unfinished delivery of a unit whose engine is ready is with a driver that has not answered,
or waits while all workers of the engine are with such drivers. -/
theorem blocked_of_settled (h : c.Sound) (hopen : c.isClosed = false) (hsettled : c.IsSettled)
    {l : UnitLoop} (hl : l ∈ c.units) {site : EngineSite} (hsite : c.engine? l.engine = some site)
    {d : Delivery} (hd : d ∈ c.traffic.deliveries) (hunit : d.unit = l.id)
    (hpast : d ∉ c.traffic.past) :
    (∃ r ∈ c.running, r.delivery = d ∧ r.isHeld) ∨
      d ∈ site.waiting.items ∧ c.busy l.engine = site.workers ∧
        ∀ r ∈ c.running, r.engine = l.engine → r.isHeld := by
  rcases mem_deliveries.mp hd with hqueued | hhanded
  · -- The queue of the unit is empty.
    obtain ⟨m, hm, hitems⟩ := List.mem_flatMap.mp hqueued
    have hid : m.id = l.id := (h.orderly.queuedAt m hm d hitems).symm.trans hunit
    have hm' := unit?_of_mem h.orderly.unitsNodup hm
    rw [hid, unit?_of_mem h.orderly.unitsNodup hl] at hm'
    obtain rfl := Option.some.inj hm'
    rw [queue_of_settled h hopen hsettled hl hsite] at hitems
    cases hitems
  · rcases blocked_of_handed h hsettled hhanded with
      hover | hheld | ⟨e, site', hfind, hitem, hbusy, hall⟩
    · exact absurd hover hpast
    · exact .inl hheld
    · -- It waits at the engine of its unit.
      have hengine : c.traffic.engineOf? d.unit = some l.engine := by
        rw [hunit]
        exact engineOf?_of_unit? (unit?_of_mem h.orderly.unitsNodup hl)
      have hat := h.orderly.pooledAt (e, site') (KeyedList.mem_of_find? hfind) d hitem
      obtain rfl : e = l.engine := Option.some.inj (hat.symm.trans hengine)
      obtain rfl := Option.some.inj (hfind.symm.trans hsite)
      exact .inr ⟨hitem, hbusy, hall⟩

/-! ## The memory stage -/

/-- The memory stage has nothing to do. -/
def MemoryRests (c : Cluster) : Prop :=
  c.step? .admitMemory = none ∧ c.step? .startMemory = none ∧
    ∀ t elapsed, c.step? (.runMemory t elapsed) = none

theorem IsSettled.memoryRests (h : c.IsSettled) : c.MemoryRests :=
  ⟨h .admitMemory, h .startMemory, fun t elapsed => h (.runMemory t elapsed)⟩

/-- Nobody is in a stage that has nothing to do, unless its loop is off. -/
theorem MemoryRests.items (h : c.MemoryRests) (hworkers : 0 < c.memory.workers) :
    (c.memory.isStarted = true → c.memory.queue.items = []) ∧ c.memory.waiting.items = [] ∧
      c.memory.running = [] := by
  obtain ⟨hloop, hstart, hrun⟩ := h
  have hrunning : c.memory.running = [] := by
    by_contra hrunning
    obtain ⟨t, rest, hitems⟩ := List.exists_cons_of_ne_nil hrunning
    have hnone := hrun t Duration.zero
    simp [step?, runMemory?, hitems] at hnone
  refine ⟨?_, ?_, hrunning⟩
  · intro hstarted
    by_contra hqueue
    obtain ⟨t, rest, hitems⟩ := List.exists_cons_of_ne_nil hqueue
    simp [step?, admitMemory?, hstarted, Queue.pop?, hitems] at hloop
  · by_contra hwaiting
    obtain ⟨t, rest, hitems⟩ := List.exists_cons_of_ne_nil hwaiting
    simp [step?, startMemory?, hrunning, hworkers, Queue.pop?, hitems] at hstart

theorem memoryRests_of_stopped (hstopped : c.memory.isStarted = false)
    (hwaiting : c.memory.waiting.items = []) (hrunning : c.memory.running = []) :
    c.MemoryRests := by
  refine ⟨?_, ?_, ?_⟩
  · simp [step?, admitMemory?, hstopped]
  · simp [step?, startMemory?, Queue.pop?, hwaiting]
  · intro t elapsed
    simp [step?, runMemory?, hrunning]

/-- A memory stage that is on has run everything. -/
theorem staged_of_settled (hworkers : 0 < c.memory.workers) (hstarted : c.memory.isStarted = true)
    (hsettled : c.IsSettled) : c.memory.queue.items = [] ∧ c.memory.waiting.items = [] ∧
      c.memory.running = [] := by
  obtain ⟨hqueue, hwaiting, hrunning⟩ := hsettled.memoryRests.items hworkers
  exact ⟨hqueue hstarted, hwaiting, hrunning⟩

end Cluster
end SeriesExec
