import SeriesExec.Proofs.Conservation
import SeriesExec.Proofs.Replays

/-!
# Sequential — a unit behaves like a store of its own

Units share loops, queues, workers and stores, and a history mixes their deliveries at will.  If the
engine of a unit is a store with one worker, none of that shows in the results of the unit.  This
file defines `Cluster.ownCall`, the call for a delivery on a store that has nothing but its unit.

Main statement: the results of the deliveries of a unit that were executed are those of their tasks
executed one after another, in the order in which they came to the unit, on a store that has nothing
but that unit and starts empty (`unit_behaves_sequentially`).
-/

namespace SeriesExec

open Traffic Store

namespace Traffic

variable {τ : Traffic} {u : UnitId} {e : EngineId}

theorem mem_underway_or_past_of_served {p : Delivery × TaskResult} (hp : p ∈ τ.served) :
    p.1 ∈ τ.underway ++ τ.past := by
  rcases List.mem_append.mp hp with hp | hp
  · obtain ⟨e, he, rfl⟩ := List.mem_map.mp hp
    exact List.mem_append_right _ (List.mem_map_of_mem (List.mem_of_mem_filter he))
  · obtain ⟨r, hr, rfl⟩ := List.mem_map.mp hp
    exact List.mem_append_left _ (List.mem_map_of_mem hr)

theorem mem_deliveries_of_served {p : Delivery × TaskResult} (hp : p ∈ τ.served) :
    p.1 ∈ τ.deliveries := by
  rw [deliveries, List.append_assoc]
  exact List.mem_append_right _ (mem_underway_or_past_of_served hp)

/-- Among the deliveries that an engine has been called for are those of each of its units. -/
theorem servedAt_filter (hu : τ.engineOf? u = some e) :
    ((τ.servedAt e).filter fun p => p.1.unit == u) = τ.servedOn u := by
  rw [servedAt, List.filter_filter, servedOn]
  refine List.filter_congr ?_
  intro p _
  by_cases hp : p.1.unit = u <;> simp [hp, hu]

theorem executedOn_subset (τ : Traffic) (u : UnitId) {p : Delivery × TaskResult}
    (hp : p ∈ τ.executedOn u) : p ∈ τ.served ∧ p.1.unit = u :=
  ⟨List.mem_append_left _ (List.mem_of_mem_filter hp), eq_of_beq (List.mem_filter.mp hp).2⟩

end Traffic

namespace Cluster

variable {c c' : Cluster} {e : EngineId} {u : UnitId}

/-! ## Stamps of what has been served -/

theorem notMem_queued_of_served (h : c.Sound) {p : Delivery × TaskResult}
    (hp : p ∈ c.traffic.served) : p.1 ∉ c.traffic.queued :=
  notMem_queued h (List.mem_append_right _ (mem_underway_or_past_of_served hp))

/-- If each task is delivered once, a driver that is called finds the task stamped with the unit of
the delivery. -/
theorem stamp?_of_served (h : c.Sound) (hstamped : c.Stamped)
    (honce : (c.traffic.deliveries.map Delivery.task).Nodup) {p : Delivery × TaskResult}
    (hp : p ∈ c.traffic.served) : c.stamp? p.1.task = some p.1.unit :=
  hstamped.stamp?_eq (mem_deliveries_of_served hp) (notMem_queued_of_served h hp) fun _ hd htask =>
    List.inj_on_of_nodup_map honce hd (mem_deliveries_of_served hp) htask

/-! ## One unit -/

section

variable [PatternLibrary]

/-- The calls for a unit are answered as a store would answer them that is called for nothing
else. -/
theorem servedOn_eq_replay (hmirrors : c.traffic.Mirrors c.callOf e)
    (hu : c.traffic.engineOf? u = some e) {s : EngineSite} {st : Store} (hs : c.engine? e = some s)
    (hstore : s.driver = .store st)
    (hstamps : ∀ p ∈ c.traffic.served, c.stamp? p.1.task = some p.1.unit) :
    (Store.empty.replay ((c.traffic.servedOn u).map fun p => c.callOf p.1)).2 =
      (c.traffic.servedOn u).map fun p => (c.callOf p.1, p.2) := by
  have hown : ((c.traffic.servedAt e).filter fun p => (c.callOf p.1).isOn u) =
      c.traffic.servedOn u := by
    rw [← servedAt_filter hu]
    refine List.filter_congr ?_
    intro p hp
    rw [StoreCall.isOn, callOf, hstamps p (List.mem_of_mem_filter hp)]
    simp
  have hall := hmirrors s st hs hstore
  have hothers := replay_isOn ordered_empty u ((c.traffic.servedAt e).map fun p => c.callOf p.1)
  rw [hall] at hothers
  -- The filter goes through to the deliveries, and among those it finds the ones of the unit.
  simp only [List.filter_map] at hothers
  rw [← hown]
  exact hothers.symm

/-- The call for a delivery on a store that has nothing but the unit. -/
def ownCall (c : Cluster) (u : UnitId) (d : Delivery) : StoreCall :=
  ⟨d.task, some u, c.operatorsOf d.task⟩

theorem executedOn_eq_replay (hmirrors : c.traffic.Mirrors c.callOf e)
    (hu : c.traffic.engineOf? u = some e) {s : EngineSite} {st : Store} (hs : c.engine? e = some s)
    (hstore : s.driver = .store st)
    (hstamps : ∀ p ∈ c.traffic.served, c.stamp? p.1.task = some p.1.unit) :
    (Store.empty.replay ((c.traffic.executedOn u).map fun p => c.ownCall u p.1)).2 =
      (c.traffic.executedOn u).map fun p => (c.ownCall u p.1, p.2) := by
  have hcall : ∀ p ∈ c.traffic.executedOn u, c.callOf p.1 = c.ownCall u p.1 := by
    intro p hp
    obtain ⟨hserved, hunit⟩ := executedOn_subset c.traffic u hp
    rw [callOf, ownCall, hstamps p hserved, hunit]
  have hcalls : ((c.traffic.executedOn u).map fun p => c.callOf p.1) =
      (c.traffic.executedOn u).map fun p => c.ownCall u p.1 := List.map_congr_left hcall
  have hpairs : ((c.traffic.executedOn u).map fun p => (c.callOf p.1, p.2)) =
      (c.traffic.executedOn u).map fun p => (c.ownCall u p.1, p.2) :=
    List.map_congr_left fun p hp => congrArg (·, p.2) (hcall p hp)
  have hall := servedOn_eq_replay hmirrors hu hs hstore hstamps
  rw [servedOn_eq, List.map_append, List.map_append, hcalls, hpairs] at hall
  -- What a worker is still busy with came last, so it does not count for what was answered before.
  rw [replay_append] at hall
  refine (List.append_inj hall ?_).1
  rw [length_replay, List.length_map, List.length_map]

/-- A task is answered by the store that the tasks ahead of it have left. -/
theorem answer_of_replay_eq {ahead behind : List (Delivery × TaskResult)}
    {p : Delivery × TaskResult}
    (hreplay : (Store.empty.replay ((ahead ++ p :: behind).map fun q => c.ownCall u q.1)).2 =
      (ahead ++ p :: behind).map fun q => (c.ownCall u q.1, q.2)) :
    p.2 = (Store.empty.replay (ahead.map fun q => c.ownCall u q.1)).1.answer (c.ownCall u p.1) := by
  have hsplit : ahead ++ p :: behind = (ahead ++ [p]) ++ behind := by simp
  simp only [hsplit, List.map_append, List.map_singleton] at hreplay
  rw [replay_append] at hreplay
  have hfirst := (List.append_inj hreplay (by simp [length_replay])).1
  rw [replay_snoc] at hfirst
  have hlast := (List.append_inj' hfirst rfl).2
  exact (congrArg Prod.snd (List.cons.inj hlast).1).symm

/-! ## The order of arrival -/

/-- What has come in later has a higher number. -/
theorem id_lt_accepted_iff (h : c.Sound) {events : List Event} (hrun : c.run? events = some c')
    {d : Delivery} (hd : d ∈ c'.traffic.deliveries) :
    d.id < c.accepted ↔ d ∈ c.traffic.deliveries := by
  have hids : ∀ n, n ∈ c.traffic.deliveries.map Delivery.id ↔ n < c.accepted := fun n =>
    h.numbered.mem_iff.trans List.mem_range
  constructor
  · intro hlt
    obtain ⟨d', hd', hid⟩ := List.mem_map.mp ((hids d.id).mpr hlt)
    have hlater := (subperm_deliveries_of_run? h hrun).subset hd'
    exact List.inj_on_of_nodup_map (h.run? hrun).numbered.nodup hlater hd hid ▸ hd'
  · intro hmem
    exact (hids d.id).mp (List.mem_map_of_mem hmem)

/-- In a history in which each task is delivered once and drivers are called by workers only, a unit
whose engine is a store with one worker behaves like a store of its own that starts empty:

* the deliveries that were executed ended in the order of their numbers, and those number the
  deliveries in the order in which they came in;
* their results are those of their tasks executed on that store, one after another, with every error
  told as a failure of the execution (`Store.answer_eq_ok_iff`, `Store.answer_eq_error_iff`);
* so each of them was answered by the store that those ahead of it have left;
* whatever came to the unit before one of them is over;
* the tasks have those results, unless results were set by hand. -/
theorem unit_behaves_sequentially (s : Setup) {events : List Event}
    (hrun : (build s).run? events = some c)
    (hdirect : ∀ e t, .asked (.callDriver e t) ∉ events)
    (honce : (c.traffic.deliveries.map Delivery.task).Nodup) (u : UnitId)
    (hmemory : ∀ e site, c.traffic.engineOf? u = some e → c.engine? e = some site →
      site.workers = 1 ∧ ∃ st, site.driver = .store st) :
    ((c.traffic.executedOn u).Pairwise fun p q => p.1.id < q.1.id) ∧
    (∀ before rest c₁, events = before ++ rest → (build s).run? before = some c₁ →
      ∀ d ∈ c.traffic.deliveries, d.id < c₁.accepted ↔ d ∈ c₁.traffic.deliveries) ∧
    (c.traffic.executedOn u).map Prod.snd =
      (Store.empty.replay ((c.traffic.executedOn u).map fun p => c.ownCall u p.1)).2.map Prod.snd ∧
    (∀ ahead p behind, c.traffic.executedOn u = ahead ++ p :: behind → p.2 =
      (Store.empty.replay (ahead.map fun q => c.ownCall u q.1)).1.answer (c.ownCall u p.1)) ∧
    (∀ p ∈ c.traffic.executedOn u, ∀ d ∈ c.traffic.deliveries, d.unit = u → d.id < p.1.id →
      d ∈ c.traffic.past) ∧
    ((∀ e ∈ events, e.setsResult = false) →
      ∀ p ∈ c.traffic.executedOn u, c.result? p.1.task = some p.2) := by
  have hc : c.Coherent := (coherent_build s).run? hrun
  have hsingle : c.traffic.Single u := fun e hu site hs => (hmemory e site hu hs).1
  have hascending := ascending_of_run? hrun hsingle
  have hreplay : (Store.empty.replay ((c.traffic.executedOn u).map fun p => c.ownCall u p.1)).2 =
      (c.traffic.executedOn u).map fun p => (c.ownCall u p.1, p.2) := by
    cases hexecuted : c.traffic.executedOn u with
    | nil => rfl
    | cons p rest =>
      -- A driver was called for the unit, so its engine is ready.
      obtain ⟨hserved, hunit⟩ := executedOn_subset c.traffic u (hexecuted ▸ List.mem_cons_self)
      obtain ⟨e, site, hu, hs⟩ := placed_of_run? hrun p hserved
      rw [hunit] at hu
      obtain ⟨_, st, hstore⟩ := hmemory e site hu hs
      rw [← hexecuted]
      exact executedOn_eq_replay (mirrors_of_run? hrun hdirect (hsingle e hu)) hu hs hstore
        fun p hp => stamp?_of_served hc.sound (stamped_of_run? hrun) honce hp
  refine ⟨?_, ?_, ?_, ?_, ?_, ?_⟩
  · have hsorted := hascending.sorted
    rw [line_eq_executedOn, List.pairwise_append, List.pairwise_map] at hsorted
    exact hsorted.1
  · intro before rest c₁ hevents hbefore d hd
    have hrest : c₁.run? rest = some c := by
      rw [hevents, run?_append, hbefore] at hrun
      exact hrun
    exact id_lt_accepted_iff ((sound_build s).run? hbefore) hrest hd
  · rw [hreplay, List.map_map]
    rfl
  · intro ahead p behind hexecuted
    rw [hexecuted] at hreplay
    exact answer_of_replay_eq hreplay
  · intro p hp d hd hunit hlt
    exact hascending.mem_past_of_lt hc.sound.orderly hd hunit hp hlt
  · intro hresults p hp
    obtain ⟨ending, hending, rfl⟩ := List.mem_map.mp (List.mem_of_mem_filter hp)
    have hmem : ending ∈ c.finished := List.mem_of_mem_filter hending
    refine result?_of_finished hc (storageResults_of_run? hresults hrun) hmem ?_
    have hdelivered : ending.delivery ∈ c.traffic.deliveries :=
      List.mem_append_right _ (List.mem_map_of_mem hmem)
    have hcount := List.count_eq_one_of_mem honce (List.mem_map_of_mem hdelivered)
    rw [List.count, List.countP_map] at hcount
    exact hcount

end

/-- A node with one engine in memory, which has one worker. -/
def memorySetup : Setup :=
  { sampleSetup with
    config := { sampleSetup.config with engineWorkers := 1 }
    factories := []
    engines := [(StorageEngine.plain 1 Factory.storeType, true)] }

/-- Two units on one engine: the first is written and then read, and the second is written in
between. -/
def memoryEvents : List Event :=
  [.asked (.notifyUnit none (some (StorageUnit.newMaster "unit" 1))),
    .asked (.notifyUnit none (some (StorageUnit.newMaster "other" 1))),
    .asked (.newStorage [.insert sampleBatch] sampleFragment true false none),
    .asked (.newStorage [.insert sampleBatch] sampleFragment true false none),
    .asked (.newStorage [.project ["*"]] sampleFragment true false none),
    .asked (.commit 0), .asked (.commitTo 1 "other"), .asked (.commit 2),
    .moved (.resolve "unit"), .moved (.resolve "other"), .moved (.dispatch "unit"),
    .moved (.dispatch "other"), .moved (.dispatch "unit"), .moved (.start 1),
    .moved (.complete 0 Duration.zero), .moved (.start 1), .moved (.complete 1 Duration.zero),
    .moved (.start 1), .moved (.complete 2 Duration.zero)]

theorem unit_behaves_sequentially_sample : ∃ c first second,
    (build memorySetup).run? memoryEvents = some c ∧
    c.traffic.executedOn "unit" = [(⟨0, 0, "unit"⟩, first), (⟨2, 2, "unit"⟩, second)] ∧
    c.result? 2 = some second ∧
    second = (Store.empty.replay [c.ownCall "unit" ⟨0, 0, "unit"⟩]).1.answer
      (c.ownCall "unit" ⟨2, 2, "unit"⟩) := by
  obtain ⟨c, hrun, site, hs, hexecuted, hu, hworkers, hstore, honce⟩ :
      ∃ c ∈ (build memorySetup).run? memoryEvents, ∃ site ∈ c.engine? 1,
        (c.traffic.executedOn "unit").map Prod.fst = [⟨0, 0, "unit"⟩, ⟨2, 2, "unit"⟩] ∧
        c.traffic.engineOf? "unit" = some 1 ∧ site.workers = 1 ∧
        (site.driver matches .store _) = true ∧
        (c.traffic.deliveries.map Delivery.task).Nodup := by
    decide
  have hmemory : ∀ e site, c.traffic.engineOf? "unit" = some e → c.engine? e = some site →
      site.workers = 1 ∧ ∃ st, site.driver = .store st := by
    intro e other hother hsite
    obtain rfl := Option.some.inj (hu.symm.trans hother)
    obtain rfl := Option.some.inj (hs.symm.trans hsite)
    refine ⟨hworkers, ?_⟩
    cases hdriver : site.driver with
    | store st => exact ⟨st, rfl⟩
    | scripted type => simp [hdriver] at hstore
  have hall := unit_behaves_sequentially memorySetup hrun (by simp [memoryEvents]) honce "unit"
    hmemory
  obtain ⟨p, behind, hpq, hp, hbehind⟩ := List.map_eq_cons_iff.mp hexecuted
  obtain ⟨q, rest, rfl, hq, hrest⟩ := List.map_eq_cons_iff.mp hbehind
  obtain rfl := List.map_eq_nil_iff.mp hrest
  have hanswer := hall.2.2.2.1 [p] q [] hpq
  have hresult := hall.2.2.2.2.2 (by decide) q (by simp [hpq])
  rw [hq] at hanswer hresult
  rw [List.map_singleton, hp] at hanswer
  exact ⟨c, p.2, q.2, hrun, by rw [hpq, ← hp, ← hq], hresult, hanswer⟩

end Cluster
end SeriesExec
