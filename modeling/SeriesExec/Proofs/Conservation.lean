import Mathlib.Data.List.Perm.Subperm
import SeriesExec.Proofs.Fixtures
import SeriesExec.Proofs.Results
import SeriesExec.Proofs.Settled

/-!
# Conservation — no delivery is lost, and none is executed twice

As long as nobody shuts the cluster down, every delivery that it has accepted goes through its
places in order: the queue of its unit, the queue of its engine, one worker, the past.  Nothing that
happens to other deliveries changes that.  This file defines `Cluster.calls`, the deliveries for
which drivers have been called in a history.

Main statement: what becomes of deliveries in a history, and what is left of them once nothing moves
(`no_delivery_lost_or_repeated`).
-/

namespace SeriesExec

open Traffic Roster

theorem eq_of_countP_eq_one {α : Type} {l : List α} {keep : α → Bool} (h : l.countP keep = 1)
    {a b : α} (ha : a ∈ l) (hka : keep a = true) (hb : b ∈ l) (hkb : keep b = true) : a = b := by
  rw [List.countP_eq_length_filter] at h
  rcases List.length_eq_one_iff.mp h with ⟨z, hz⟩
  have ha' : a ∈ l.filter keep := List.mem_filter.mpr ⟨ha, hka⟩
  have hb' : b ∈ l.filter keep := List.mem_filter.mpr ⟨hb, hkb⟩
  rw [hz, List.mem_singleton] at ha' hb'
  rw [ha', hb']

namespace Cluster

variable {c c' : Cluster}

/-! ## Histories -/

/-- The deliveries for which drivers are called in a history. -/
def calls [PatternLibrary] (c : Cluster) (events : List Event) : List Delivery :=
  c.trace (fun c e => (c.calledBy? e).toList) events

theorem called_perm_of_run? [PatternLibrary] (h : c.Sound) {events : List Event}
    (hrun : c.run? events = some c') :
    c'.traffic.called.Perm (c.traffic.called ++ c.calls events) := by
  induction events generalizing c with
  | nil =>
    injection hrun with hrun
    rw [hrun, calls, trace, List.append_nil]
  | cons e rest ih =>
    rcases Option.bind_eq_some_iff.mp hrun with ⟨c₁, hafter, hrest⟩
    rcases orderly_transfer_of_after? h hafter with ⟨new, _, htransfer, _⟩
    rw [calls, trace_cons _ hafter, ← List.append_assoc]
    exact (ih (h.after? hafter) hrest).trans (htransfer.called_perm.append_right _)

theorem subperm_deliveries_of_run? [PatternLibrary] (h : c.Sound) {events : List Event}
    (hrun : c.run? events = some c') : c.traffic.deliveries.Subperm c'.traffic.deliveries := by
  refine h.run?_induction (P := fun c' => c.traffic.deliveries.Subperm c'.traffic.deliveries)
    (fun hc hsub hafter => ?_) (List.Subperm.refl _) hrun
  rcases orderly_transfer_of_after? hc hafter with ⟨new, _, htransfer, _⟩
  exact hsub.trans ((List.sublist_append_left _ _).subperm.trans
    htransfer.deliveries_perm.symm.subperm)

theorem called_build (s : Setup) : (build s).traffic.called = [] := by
  have hunderway : (build s).traffic.underway = [] := (accepts_build s).underway
  rw [called, hunderway, show (build s).traffic.finished = [] from finished_build s]
  rfl

/-- A delivery for which a driver has been called is in one of the two places after that. -/
theorem called_sublist (τ : Traffic) : τ.called.Sublist τ.deliveries :=
  (List.sublist_append_right _ _).append (List.filter_sublist.map _)

/-- Drivers have been called for the deliveries that are with workers or have ended there, for none
of them twice. -/
theorem calls_of_run? [PatternLibrary] {s : Setup} {events : List Event}
    (hrun : (build s).run? events = some c) :
    ((build s).calls events).Perm c.traffic.called ∧
      (((build s).calls events).map Delivery.id).Nodup := by
  have hcalled := called_perm_of_run? (sound_build s) hrun
  rw [called_build, List.nil_append] at hcalled
  have hnodup : (c.traffic.called.map Delivery.id).Nodup :=
    ((sound_build s).run? hrun).numbered.nodup.sublist ((called_sublist c.traffic).map _)
  exact ⟨hcalled.symm, (hcalled.map Delivery.id).nodup_iff.mp hnodup⟩

theorem result?_eq_of_later (h : c.roster.Later c'.roster) {t : TaskId} {r : TaskResult}
    (hr : c.result? t = some r) : c'.result? t = some r := by
  rw [← result?_roster] at hr ⊢
  exact h.result? hr

/-- A task that is delivered once has a result exactly when that delivery is over. -/
theorem isSome_result?_iff_past (h : c.Coherent) (hresults : c.StorageResults) {d : Delivery}
    (hd : d ∈ c.traffic.deliveries)
    (honce : (c.traffic.deliveries.countP fun d' => d'.task == d.task) = 1) :
    (c.result? d.task).isSome ↔ d ∈ c.traffic.past := by
  have hstorage : ∀ y, c.roster.task? d.task = some y → y.isStorage := by
    intro y hy
    rcases h.hasStorage hd with ⟨x, hx, hx'⟩
    rcases Option.some.inj (hx.symm.trans hy) with rfl
    exact hx'
  -- The result of a storage task is that of its first ending, so having one is having ended.
  have hended : (c.result? d.task).isSome ↔ ∃ d' ∈ c.traffic.past, d'.task = d.task := by
    rw [← result?_roster, hresults d.task hstorage, isSome_firstResult?,
      List.map_map, past]
    simp only [List.mem_map, Function.comp_apply, Ending.news, exists_exists_and_eq_and]
    exact Iff.rfl
  rw [hended]
  constructor
  · rintro ⟨d', hpast, htask⟩
    have hd' : d' ∈ c.traffic.deliveries := List.mem_append_right _ hpast
    -- The task has one delivery only, so the one that is over is `d` itself.
    have heq : d' = d :=
      eq_of_countP_eq_one honce hd' (beq_iff_eq.mpr htask) hd (beq_self_eq_true d.task)
    exact heq ▸ hpast
  · intro hpast
    exact ⟨d, hpast, rfl⟩

/-- The only delivery of a task decides the result of the task. -/
theorem result?_of_finished (h : c.Coherent) (hresults : c.StorageResults) {e : Ending}
    (he : e ∈ c.finished)
    (honce : (c.traffic.deliveries.countP fun d => d.task == e.delivery.task) = 1) :
    c.result? e.delivery.task = some e.result := by
  have hpast : e.delivery ∈ c.traffic.past := List.mem_map_of_mem he
  have hdelivered : e.delivery ∈ c.traffic.deliveries := List.mem_append_right _ hpast
  obtain ⟨x, hx, hstorage⟩ := h.storage e.delivery hdelivered
  obtain ⟨r, hr⟩ := Option.isSome_iff_exists.mp
    ((isSome_result?_iff_past h hresults hdelivered honce).mpr hpast)
  obtain ⟨e', he', htask, rfl⟩ := exists_ending_of_result? hresults hx hstorage hr
  have hsame : e'.delivery = e.delivery :=
    eq_of_countP_eq_one honce (List.mem_append_right _ (List.mem_map_of_mem he'))
      (beq_iff_eq.mpr htask) hdelivered (beq_self_eq_true _)
  have hnodup : (c.finished.map Ending.delivery).Nodup :=
    (List.Nodup.of_append_right (h.sound.numbered.nodup.of_map _) :)
  rw [hr, List.inj_on_of_nodup_map hnodup he' he hsame]

/-- What becomes of deliveries in a history that does not shut the cluster down:

* each number below the count of accepted deliveries is that of one delivery in one place, the queue
  of its unit, the queue of its engine, a worker of that engine, or the past;
* handing a task over adds one delivery, and no delivery and no result ever goes away;
* drivers are called for no delivery twice;
* a task that is delivered once has a result exactly when that delivery is over;
* once nothing moves, a unit whose engine is ready has an empty queue, and its unfinished deliveries
  are with drivers that have not answered, or wait while all workers are with such drivers. -/
theorem no_delivery_lost_or_repeated [PatternLibrary] (s : Setup) {events : List Event}
    {c : Cluster} (hrun : (build s).run? events = some c) (hopen : ∀ e ∈ events, e.keepsOpen = true)
    (hresults : ∀ e ∈ events, e.setsResult = false) :
    (c.traffic.deliveries.map Delivery.id).Perm (List.range c.accepted) ∧ c.traffic.Orderly ∧
    (∀ u t c', c.enqueue u t = .ok c' →
      c'.traffic.deliveries.Perm (c.traffic.deliveries ++ [⟨c.accepted, t, u⟩])) ∧
    (∀ later c', c.run? later = some c' →
      c.traffic.deliveries.Subperm c'.traffic.deliveries ∧
        ∀ t r, c.result? t = some r → c'.result? t = some r) ∧
    ((build s).calls events).Perm c.traffic.called ∧
    (((build s).calls events).map Delivery.id).Nodup ∧
    (∀ d ∈ c.traffic.deliveries, (c.traffic.deliveries.countP fun d' => d'.task == d.task) = 1 →
      ((c.result? d.task).isSome ↔ d ∈ c.traffic.past)) ∧
    (c.IsSettled → ∀ l ∈ c.units, ∀ site, c.engine? l.engine = some site →
      l.queue.items = [] ∧
        ∀ d ∈ c.traffic.deliveries, d.unit = l.id → d ∉ c.traffic.past →
          (∃ r ∈ c.running, r.delivery = d ∧ r.isHeld) ∨
            d ∈ site.waiting.items ∧ c.busy l.engine = site.workers ∧
              ∀ r ∈ c.running, r.engine = l.engine → r.isHeld) := by
  have hcoherent := (coherent_build s).run? hrun
  have hsound := hcoherent.sound
  have hclosed := isClosed_of_run? hopen hrun
  rcases calls_of_run? hrun with ⟨hcalled, hnodup⟩
  refine ⟨hsound.numbered, hsound.orderly, ?_, ?_, hcalled, hnodup, ?_, ?_⟩
  · intro u t c' henqueue
    exact (Transfer.accept _ (accepts_enqueue hsound.orderly henqueue)).deliveries_perm
  · intro later c' hlater
    exact ⟨subperm_deliveries_of_run? hsound hlater,
      fun t r => result?_eq_of_later (later_of_run? hcoherent hlater)⟩
  · intro d hd honce
    exact isSome_result?_iff_past hcoherent (storageResults_of_run? hresults hrun) hd honce
  · intro hsettled l hl site hsite
    exact ⟨queue_of_settled hsound hclosed hsettled hl hsite, fun d hd hunit hpast =>
      blocked_of_settled hsound hclosed hsettled hl hsite hd hunit hpast⟩

/-- A node with an engine of two workers, whose outside driver panics at the first call and does not
answer the second before it is let through. -/
def sampleSetup : Setup where
  config := { ExecutorConfig.default with engineWorkers := 2 }
  node := 0
  factories := [("outside", .scripted (Script.new
    [⟨false, .panicked⟩, ⟨true, .answer (.ok .done)⟩] [] none))]
  engines := [(StorageEngine.plain 1 "outside", true)]
  memoryStarted := true
  router := .master
  monitors := []

/-- All series at all times, held by a group of one unit. -/
def sampleFragment : Fragment :=
  ⟨.interval none none, KeyInterval.all, StorageUnit.newMaster "unit" 1⟩

/-- One of two committed tasks panics, the other is left with its driver. -/
def sampleEvents : List Event :=
  [.asked (.notifyUnit none (some (StorageUnit.newMaster "unit" 1))),
    .asked (.newStorage [] sampleFragment true false none),
    .asked (.newStorage [] sampleFragment true false none), .asked (.commitAll [0, 1]),
    .moved (.resolve "unit"), .moved (.dispatch "unit"), .moved (.dispatch "unit"),
    .moved (.start 1), .moved (.start 1), .moved (.complete 0 Duration.zero)]

theorem no_delivery_lost_or_repeated_sample :
    ∃ c, (build sampleSetup).run? sampleEvents = some c ∧
      (c.traffic.deliveries.map Delivery.id).Perm (List.range c.accepted) ∧
      (((build sampleSetup).calls sampleEvents).map Delivery.id).Nodup := by
  obtain ⟨c, hrun⟩ := Option.isSome_iff_exists.mp
    (show ((build sampleSetup).run? sampleEvents).isSome = true by decide)
  have hall := no_delivery_lost_or_repeated sampleSetup hrun (by decide) (by decide)
  exact ⟨c, hrun, hall.1, hall.2.2.2.2.2.1⟩

end Cluster
end SeriesExec
