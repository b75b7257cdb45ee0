import SeriesExec.Proofs.Sequential

/-!
# Called units — for which unit a driver is called

A task may be committed more than once, and to different units.  The loops of the units then take
its deliveries one after another, and what a driver is called with is what they have left on the
task.  This file defines:

* `Cluster.takenBy?` and `Cluster.takings` — the deliveries that loops have taken in a history;
* `Cluster.Marked` — what these deliveries have left on the tasks;
* `Traffic.StoresOrdered` — the units of each store are in their order.

Main statement: the driver that is called for a delivery is that of the engine of its unit, and it
is called with the unit that took the task first and with the mark of the unit that took it last, so
with the unit and the mark of the delivery exactly if these are the same (`called_for_first_taker`).
A task that is committed to two units is executed twice on the unit that takes it first
(`called_for_other_unit`).
-/

namespace SeriesExec

open Traffic Store

/-! ## Stores -/

namespace Traffic

variable {τ τ' : Traffic} {new : List Delivery}

/-- The units of each store are in the order of their names. -/
def StoresOrdered (τ : Traffic) : Prop :=
  ∀ e s st, τ.engine? e = some s → s.driver = .store st → st.Ordered

theorem StoresOrdered.putEngine (h : τ.StoresOrdered) {s : EngineSite}
    (hs : ∀ st, s.driver = .store st → st.Ordered) : (τ.putEngine s).StoresOrdered := by
  intro e s' st hs' hstore
  rw [engine?_putEngine] at hs'
  split at hs'
  · cases hs'
    exact hs st hstore
  · exact h e s' st hs' hstore

theorem StoresOrdered.shift (horderly : τ.Orderly) (hshift : Shift False τ new τ')
    (h : τ.StoresOrdered) : τ'.StoresOrdered := by
  intro e s' st hs' hstore
  cases hs : τ.engine? e with
  | none =>
    have hempty := (hshift.engine?_none horderly hs hs').2 st hstore
    exact hempty ▸ ordered_empty
  | some s =>
    obtain ⟨s₁, hs₁, hsame⟩ := hshift.engine?_some horderly hs
    obtain rfl : s₁ = s' := Option.some.inj (hs₁.symm.trans hs')
    exact h e s st hs ((hsame.driver id).symm.trans hstore)

end Traffic

namespace Cluster

variable {c c' : Cluster} {e : EngineId}

theorem storesOrdered_callDriver [PatternLibrary] (h : c.traffic.StoresOrdered) {s : EngineSite}
    (hs : c.engine? e = some s) (t : TaskId) (task : Task) :
    (c.callDriver s t task).1.traffic.StoresOrdered := by
  unfold callDriver
  dsimp only
  split
  · rename_i st hstore
    refine h.putEngine (s := { s with driver := .store _ }) fun st' hst' => ?_
    cases hst'
    exact ordered_execute (h e s st hs hstore) t _ _
  · exact h

theorem storesOrdered_after? [PatternLibrary] (hc : c.Coherent) (h : c.traffic.StoresOrdered)
    {event : Event} (hafter : c.after? event = some c') : c'.traffic.StoresOrdered := by
  by_cases hdirect : ∃ e t, event = .asked (.callDriver e t)
  · obtain ⟨e, t, rfl⟩ := hdirect
    injection hafter with hafter
    subst hafter
    unfold handle
    split
    · unfold obey
      dsimp only
      split
      · rename_i s task hs _
        have hcall := storesOrdered_callDriver h hs t task
        split <;> rename_i hpair <;> rw [hpair] at hcall <;> exact hcall
      · exact h
    · exact h
  · have hnot : ∀ e t, .asked (.callDriver e t) ≠ event := fun e t hsame =>
      hdirect ⟨e, t, hsame.symm⟩
    rcases course_or_taken_of_after? hc hnot hafter with
      ⟨new, hcourse⟩ | ⟨s, d, rest, driver, outcome, isHeld, hs, _, hanswers, htraffic⟩
    · exact hcourse.keeps (fun horderly hshift h => h.shift horderly hshift) h
    · have hordered : ∀ st, driver = .store st → st.Ordered := by
        intro st hst
        generalize hdriver : s.driver = before at hanswers
        cases hanswers with
        | store st₀ =>
          cases hst
          exact ordered_execute (h s.id s st₀ hs hdriver) d.task _ _
        | scripted type outcome isHeld => cases hst
      have hput := h.putEngine (s := { s with waiting := ⟨rest⟩, driver := driver }) hordered
      rw [htraffic]
      exact hput

theorem storesOrdered_of_run? [PatternLibrary] {s : Setup} {events : List Event}
    (hrun : (build s).run? events = some c) : c.traffic.StoresOrdered := by
  refine (coherent_build s).run?_induction (P := fun c => c.traffic.StoresOrdered)
    (fun hc h hafter => storesOrdered_after? hc h hafter) ?_ hrun
  refine (course_build s).keeps (fun horderly hshift h => h.shift horderly hshift) ?_
  intro e s' st hs'
  cases hs'

/-! ## What loops take -/

/-- The delivery that a loop takes in an event. -/
def takenBy? (c : Cluster) : Event → Option Delivery
  | .moved (.dispatch u) => (c.unit? u).bind fun l => l.queue.items.head?
  | _ => none

/-- The deliveries that loops take in a history, in the order in which they do. -/
def takings [PatternLibrary] (c : Cluster) (events : List Event) : List Delivery :=
  c.trace (fun c e => (c.takenBy? e).toList) events

/-- Whether a unit is known as a dummy unit. -/
def isDummyUnit (c : Cluster) (u : UnitId) : Bool :=
  (c.unit? u).any UnitLoop.isDummy

/-- The deliveries of a task. -/
def ofTask (t : TaskId) (ds : List Delivery) : List Delivery :=
  ds.filter fun d => d.task == t

theorem ofTask_append (t : TaskId) (ds ds' : List Delivery) :
    ofTask t (ds ++ ds') = ofTask t ds ++ ofTask t ds' :=
  List.filter_append ..

/-- What the deliveries that loops have taken, in this order, have left: the unit of the first one
of a task is its stamp, that of the last one decides its mark, and what has not been taken waits. -/
structure Marked (c : Cluster) (ds : List Delivery) : Prop where
  stamp : ∀ t, c.stamp? t = (ofTask t ds).head?.map Delivery.unit
  dummy : ∀ t, (c.mark t).2 = (ofTask t ds).getLast?.any fun d => c.isDummyUnit d.unit
  known : ∀ d ∈ ds, (c.unit? d.unit).isSome
  taken : ∀ d ∈ c.traffic.deliveries, d ∈ c.traffic.queued ∨ d ∈ ds

/-- A known unit stays what it is. -/
theorem isDummyUnit_after? [PatternLibrary] (hc : c.Coherent) {event : Event}
    (hafter : c.after? event = some c') {u : UnitId} (hu : (c.unit? u).isSome) :
    (c'.unit? u).isSome ∧ c'.isDummyUnit u = c.isDummyUnit u := by
  obtain ⟨l, hl⟩ := Option.isSome_iff_exists.mp hu
  obtain ⟨_, hcourse⟩ : ∃ new, Course True c.traffic new c'.traffic :=
    course_of_after? hc (fun _ => trivial) hafter
  have hbefore : (c.traffic.unit? u).map UnitLoop.isDummy = some l.isDummy :=
    Option.map_eq_some_iff.mpr ⟨l, hl, rfl⟩
  have hkept := hcourse.facet_some (fun _ _ _ => rfl) hbefore
  obtain ⟨l', hl', hdummy⟩ := Option.map_eq_some_iff.mp hkept
  have hl' : c'.unit? u = some l' := hl'
  refine ⟨Option.isSome_iff_exists.mpr ⟨l', hl'⟩, ?_⟩
  rw [isDummyUnit, isDummyUnit, hl, hl']
  exact hdummy

/-- As long as units stay what they are, so does what the last deliveries say. -/
theorem Marked.any_getLast? {ds : List Delivery} (h : c.Marked ds)
    (hunits : ∀ u, (c.unit? u).isSome →
      (c'.unit? u).isSome ∧ c'.isDummyUnit u = c.isDummyUnit u) (t : TaskId) :
    ((ofTask t ds).getLast?.any fun d => c'.isDummyUnit d.unit) = (c.mark t).2 := by
  rw [h.dummy t]
  cases hlast : (ofTask t ds).getLast? with
  | none => rfl
  | some d =>
    have hd : d ∈ ds := List.mem_of_mem_filter (List.mem_of_getLast? hlast)
    exact (hunits d.unit (h.known d hd)).2

/-- What no loop takes part in leaves the marks as they are. -/
theorem Marked.of_same {ds : List Delivery} (h : c.Marked ds) (hmark : c'.mark = c.mark)
    (hunits : ∀ u, (c.unit? u).isSome →
      (c'.unit? u).isSome ∧ c'.isDummyUnit u = c.isDummyUnit u)
    {new : List Delivery} (hdeliveries : c'.traffic.deliveries.Perm (c.traffic.deliveries ++ new))
    (hnew : new ⊆ c'.traffic.queued) (hqueued : c.traffic.queued ⊆ c'.traffic.queued) :
    c'.Marked ds where
  stamp t := by
    rw [stamp?_of_mark hmark]
    exact h.stamp t
  dummy t := by
    rw [hmark]
    exact (h.any_getLast? hunits t).symm
  known d hd := (hunits d.unit (h.known d hd)).1
  taken d hd := by
    rcases List.mem_append.mp (hdeliveries.mem_iff.mp hd) with hd | hd
    · exact (h.taken d hd).imp_left fun hd => hqueued hd
    · exact .inl (hnew hd)

/-- A loop that takes a delivery leaves its unit on the task, if it is the first, and its mark. -/
theorem Marked.of_dispatch {ds : List Delivery} (h : c.Marked ds) (hc : c.Coherent)
    (hunits : ∀ u, (c.unit? u).isSome →
      (c'.unit? u).isSome ∧ c'.isDummyUnit u = c.isDummyUnit u)
    {l : UnitLoop} {d : Delivery} {rest : List Delivery} (hl : c.unit? l.id = some l)
    (hitems : l.queue.items = d :: rest) (hdispatch : c.Dispatch l d rest c') :
    c'.Marked (ds ++ [d]) := by
  have hmem := mem_units_of_unit? hl
  have hhead : d ∈ l.queue.items := hitems ▸ List.mem_cons_self
  have hunit : d.unit = l.id := hc.sound.orderly.queuedAt l hmem d hhead
  have hknown : (c.unit? d.unit).isSome := by
    rw [hunit, hl]
    rfl
  obtain ⟨x, hx, hstorage⟩ := hc.storage d (mem_deliveries_of_queue hmem hhead)
  have hmark := mark_dispatch hx hstorage hdispatch
  have hother : ∀ {t}, t ≠ d.task → ofTask t (ds ++ [d]) = ofTask t ds := by
    intro t ht
    rw [ofTask_append]
    simp [ofTask, Ne.symm ht]
  have hself : ofTask d.task (ds ++ [d]) = ofTask d.task ds ++ [d] := by
    rw [ofTask_append]
    simp [ofTask]
  have hdummy : c'.isDummyUnit d.unit = l.isDummy := by
    rw [(hunits d.unit hknown).2, isDummyUnit, hunit, hl]
    rfl
  refine ⟨?_, ?_, ?_, ?_⟩
  · intro t
    rw [stamp?_dispatch hx hstorage hdispatch]
    by_cases ht : t = d.task
    · subst ht
      rw [if_pos rfl, hself, h.stamp, List.head?_append, Option.map_or, List.head?_cons,
        Option.map_some, hunit]
    · rw [if_neg ht, hother ht]
      exact h.stamp t
  · intro t
    rw [hmark]
    by_cases ht : t = d.task
    · subst ht
      rw [if_pos rfl, hself, List.getLast?_concat]
      exact hdummy.symm
    · rw [if_neg ht, hother ht]
      exact (h.any_getLast? hunits t).symm
  · intro d₀ hd₀
    rcases List.mem_append.mp hd₀ with hd₀ | hd₀
    · exact (hunits d₀.unit (h.known d₀ hd₀)).1
    · obtain rfl := List.mem_singleton.mp hd₀
      exact (hunits d₀.unit hknown).1
  · intro d₀ hd₀
    obtain ⟨_, htransfer, hqueued⟩ :=
      orderly_transfer_of_dispatch hc.sound.orderly hl hitems hdispatch
    have hsame := htransfer.deliveries_perm
    rw [List.append_nil] at hsame
    -- What has waited waits still, unless it is `d`.
    rcases h.taken d₀ (hsame.mem_iff.mp hd₀) with hd₀ | hd₀
    · rcases List.mem_cons.mp (hqueued.mem_iff.mp hd₀) with rfl | hd₀
      · exact .inr (List.mem_append_right _ List.mem_cons_self)
      · exact .inl hd₀
    · exact .inr (List.mem_append_left _ hd₀)

theorem Marked.after? [PatternLibrary] {ds : List Delivery} (h : c.Marked ds) (hc : c.Coherent)
    {event : Event}
    (hafter : c.after? event = some c') : c'.Marked (ds ++ (c.takenBy? event).toList) := by
  have hunits : ∀ u, (c.unit? u).isSome →
      (c'.unit? u).isSome ∧ c'.isDummyUnit u = c.isDummyUnit u :=
    fun u hu => isDummyUnit_after? hc hafter hu
  by_cases he : ∃ u, event = .moved (.dispatch u)
  · obtain ⟨u, rfl⟩ := he
    obtain ⟨l, d, rest, hl, _, _, hitems, hdispatch⟩ := dispatch_of_dispatch? hafter
    have htaken : c.takenBy? (.moved (.dispatch u)) = some d := by
      rw [takenBy?, hl, Option.bind_some, hitems]
      rfl
    rw [htaken]
    exact h.of_dispatch hc hunits (id_of_unit? hl ▸ hl) hitems hdispatch
  · have hother : ∀ u, event ≠ .moved (.dispatch u) := fun u hu => he ⟨u, hu⟩
    have htaken : c.takenBy? event = none := by
      unfold takenBy?
      split
      · exact absurd rfl (hother _)
      · rfl
    have hmark : c'.mark = c.mark := by
      cases event with
      | asked r =>
        injection hafter with hafter
        exact hafter ▸ mark_handle c r
      | moved s => exact mark_step? (fun u hs => hother u (hs ▸ rfl)) hafter
    obtain ⟨new, _, htransfer, _⟩ := orderly_transfer_of_after? hc.sound hafter
    rw [htaken, Option.toList_none, List.append_nil]
    exact h.of_same hmark hunits htransfer.deliveries_perm htransfer.new_subset
      (queued_subset_of_after? hc.sound hother hafter)

theorem marked_of_run? [PatternLibrary] {s : Setup} {events : List Event}
    (hrun : (build s).run? events = some c) : c.Marked ((build s).takings events) := by
  induction events using List.reverseRecOn generalizing c with
  | nil =>
    injection hrun with hrun
    subst hrun
    have hnone : ∀ t, (build s).task? t = none := fun t => Option.map_eq_none_iff.mp
      (congrFun (congrArg Roster.task? (roster_build s)) t)
    refine ⟨fun t => ?_, fun t => ?_, fun d hd => (nomatch hd), fun d hd => ?_⟩
    · rw [stamp?, hnone]
      rfl
    · rw [mark, hnone]
      rfl
    · rw [deliveries_build] at hd
      cases hd
  | append_singleton events event ih =>
    obtain ⟨c₁, hbefore, hafter⟩ := run?_snoc.mp hrun
    rw [takings, trace_snoc _ hbefore hafter]
    exact (ih hbefore).after? ((coherent_build s).run? hbefore) hafter

/-! ## What drivers are called with -/

theorem script?_putScript (c : Cluster) (type : String) (script : Script) :
    (c.putScript type script).script? type = some script := by
  rw [script?, putScript, KeyedList.find?_insert, if_pos rfl]

/-- An outside driver is told the stamp and the mark of the task. -/
theorem script?_of_start? [PatternLibrary] (hc : c.Coherent) (h : c.start? e = some c')
    {d : Delivery} (hd : c.calledBy? (.moved (.start e)) = some d) {s : EngineSite} {type : String}
    (hs : c.engine? e = some s) (hdriver : s.driver = .scripted type) :
    c'.script? type = some (((c.script? type).getD default).take
      ⟨d.task, (c.mark d.task).1, (c.mark d.task).2⟩) := by
  rw [calledBy?, hs, Option.bind_some] at hd
  have hpooled := mem_pooled (show c.traffic.engine? e = some s from hs) (List.mem_of_mem_head? hd)
  obtain ⟨x, hx, _⟩ := hc.storage d (by simp [deliveries, hpooled])
  have hmark : c.mark d.task = x.mark := by
    rw [mark, hx]
    rfl
  obtain ⟨id, driver, workers, ⟨items⟩⟩ := s
  cases items with
  | nil => cases hd
  | cons first rest =>
    cases hd
    cases hdriver
    unfold start? at h
    rw [hs] at h
    dsimp only [Queue.pop?] at h
    rw [hx] at h
    split at h
    · cases h
      rw [hmark]
      exact script?_putScript _ type _
    · cases h

/-- A store that a worker calls for a delivery executes the task on the unit of the stamp: the
answer is that of the unit, and no other unit changes. -/
theorem store_of_start? [PatternLibrary] (hc : c.Coherent) (hordered : c.traffic.StoresOrdered)
    (h : c.start? e = some c') {d : Delivery} (hd : c.calledBy? (.moved (.start e)) = some d)
    {s : EngineSite} {st : Store} (hs : c.engine? e = some s) (hdriver : s.driver = .store st)
    {u : UnitId} (hu : c.stamp? d.task = some u) :
    c'.running = c.running ++
      [⟨d, e, .answer (st.executeOn u d.task (c.operatorsOf d.task)).2, false⟩] ∧
    ∃ s' st', c'.engine? e = some s' ∧ s'.driver = .store st' ∧ ∀ v, st'.batches v =
      if v = u then written (c.operatorsOf d.task) (st.batches v) else st.batches v := by
  obtain ⟨s₁, d₁, rest, driver, outcome, isHeld, rfl, hs₁, hitems, hanswers, htraffic⟩ :=
    answers_of_start? hc h
  obtain rfl : s₁ = s := Option.some.inj (hs₁.symm.trans hs)
  obtain rfl : d₁ = d := by
    rw [calledBy?, hs, Option.bind_some, hitems] at hd
    exact Option.some.inj hd
  rw [hdriver] at hanswers
  cases hanswers
  rw [hu] at htraffic
  refine ⟨congrArg Traffic.running htraffic, ?_⟩
  have hengine : c'.traffic.engine? s₁.id = some { s₁ with
      waiting := ⟨rest⟩
      driver := .store (st.executeOn u d₁.task (c.operatorsOf d₁.task)).1 } := by
    rw [htraffic]
    exact (engine?_putEngine ..).trans (if_pos rfl)
  refine ⟨_, _, hengine, rfl, fun v => ?_⟩
  rw [batches_executeOn (hordered s₁.id s₁ st hs hdriver)]
  by_cases hv : v = u
  · rw [if_pos hv, if_pos hv, hv]
  · rw [if_neg hv, if_neg hv]

/-- Of the deliveries of a task that loops have taken, the first and the last decide what a driver
is called with, for whichever of them it is called:

* the driver is that of the engine of the unit of the delivery;
* the task shows the unit of the first delivery, and whether that of the last one is a dummy unit;
* so it shows what the delivery says exactly if the first one is for the same unit, and the last one
  for a unit with the same mark;
* a store reads and writes the batches of the unit of the first one, and of no other;
* an outside driver is told that unit and that mark. -/
theorem called_for_first_taker [PatternLibrary] {s : Setup} {events : List Event}
    (hrun : (build s).run? events = some c) {d : Delivery}
    (hd : c.calledBy? (.moved (.start e)) = some d) (hstart : c.step? (.start e) = some c') :
    c.traffic.engineOf? d.unit = some e ∧ ∃ first last,
      (ofTask d.task ((build s).takings events)).head? = some first ∧
      (ofTask d.task ((build s).takings events)).getLast? = some last ∧
      d ∈ ofTask d.task ((build s).takings events) ∧
      c.mark d.task = (some first.unit, c.isDummyUnit last.unit) ∧
      (c.mark d.task = (some d.unit, c.isDummyUnit d.unit) ↔
        first.unit = d.unit ∧ c.isDummyUnit last.unit = c.isDummyUnit d.unit) ∧
      (∀ site st, c.engine? e = some site → site.driver = .store st →
        c'.running = c.running ++
          [⟨d, e, .answer (st.executeOn first.unit d.task (c.operatorsOf d.task)).2, false⟩] ∧
        ∃ site' st', c'.engine? e = some site' ∧ site'.driver = .store st' ∧ ∀ v, st'.batches v =
          if v = first.unit then written (c.operatorsOf d.task) (st.batches v)
          else st.batches v) ∧
      (∀ site type, c.engine? e = some site → site.driver = .scripted type →
        c'.script? type = some (((c.script? type).getD default).take
          ⟨d.task, some first.unit, c.isDummyUnit last.unit⟩)) := by
  have hc := (coherent_build s).run? hrun
  have hmarked := marked_of_run? hrun
  obtain ⟨site, d₁, rest, _, _, _, rfl, hsite, hitems, _, _⟩ := answers_of_start? hc hstart
  obtain rfl : d₁ = d := by
    rw [calledBy?, hsite, Option.bind_some, hitems] at hd
    exact Option.some.inj hd
  have hwaits : d₁ ∈ site.waiting.items := hitems ▸ List.mem_cons_self
  have hpooled := mem_pooled (show c.traffic.engine? site.id = some site from hsite) hwaits
  -- A delivery that waits for a worker is in no queue, so a loop has taken it.
  have htaken : d₁ ∈ ofTask d₁.task ((build s).takings events) := by
    have hout := notMem_queued hc.sound (List.mem_append_left _ hpooled)
    have hmem := (hmarked.taken d₁ (by simp [deliveries, hpooled])).resolve_left hout
    exact List.mem_filter.mpr ⟨hmem, beq_self_eq_true _⟩
  obtain ⟨first, hfirst⟩ :
      ∃ first, (ofTask d₁.task ((build s).takings events)).head? = some first :=
    Option.isSome_iff_exists.mp (List.isSome_head?.mpr (List.ne_nil_of_mem htaken))
  obtain ⟨last, hlast⟩ :
      ∃ last, (ofTask d₁.task ((build s).takings events)).getLast? = some last :=
    Option.isSome_iff_exists.mp (List.getLast?_isSome.mpr (List.ne_nil_of_mem htaken))
  have hstamp : c.stamp? d₁.task = some first.unit := by
    rw [hmarked.stamp, hfirst]
    rfl
  -- Each taking sets the mark of a dummy unit anew, but only the first one sets the stamp.
  have hmark : c.mark d₁.task = (some first.unit, c.isDummyUnit last.unit) := by
    refine Prod.ext ((mark_fst c _).trans hstamp) ?_
    rw [hmarked.dummy, hlast]
    rfl
  refine ⟨hc.sound.orderly.pooledAt _ (KeyedList.mem_of_find? hsite) d₁ hwaits, first, last, hfirst,
    hlast, htaken, hmark, ?_, ?_, ?_⟩
  · rw [hmark, Prod.mk.injEq, Option.some.injEq]
  · intro site' st hs hdriver
    exact store_of_start? hc (storesOrdered_of_run? hrun) hstart hd hs hdriver hstamp
  · intro site' type hs hdriver
    rw [script?_of_start? hc hstart hd hs hdriver, hmark]

/-- One write is committed to two units of one engine, and executed for the first of them. -/
def twiceEvents : List Event :=
  [.asked (.notifyUnit none (some (StorageUnit.newMaster "unit" 1))),
    .asked (.notifyUnit none (some (StorageUnit.newMaster "other" 1))),
    .asked (.newStorage [.insert sampleBatch] sampleFragment true false none),
    .asked (.commitTo 0 "unit"), .asked (.commitTo 0 "other"), .moved (.resolve "unit"),
    .moved (.resolve "other"), .moved (.dispatch "unit"), .moved (.dispatch "other"),
    .moved (.start 1), .moved (.complete 0 Duration.zero)]

theorem exists_twice : ∃ c c' d, (build memorySetup).run? twiceEvents = some c ∧
    c.calledBy? (.moved (.start 1)) = some d ∧ c.step? (.start 1) = some c' ∧ d.unit = "other" ∧
    c.mark d.task = (some "unit", false) := by
  obtain ⟨c, hrun, c', hstart, d, hd, hunit, hmark⟩ :
      ∃ c ∈ (build memorySetup).run? twiceEvents, ∃ c' ∈ c.step? (.start 1),
        ∃ d ∈ c.calledBy? (.moved (.start 1)), d.unit = "other" ∧
          c.mark d.task = (some "unit", false) := by
    decide
  exact ⟨c, c', d, hrun, hd, hstart, hunit, hmark⟩

theorem called_for_first_taker_sample : ∃ (c : Cluster) (d first last : Delivery),
    (build memorySetup).run? twiceEvents = some c ∧
    c.calledBy? (.moved (.start 1)) = some d ∧ c.traffic.engineOf? d.unit = some 1 ∧
    d.unit = "other" ∧ c.mark d.task = (some first.unit, c.isDummyUnit last.unit) := by
  obtain ⟨c, c', d, hrun, hd, hstart, hunit, -⟩ := exists_twice
  obtain ⟨hengine, first, last, -, -, -, hmark, -⟩ := called_for_first_taker hrun hd hstart
  exact ⟨c, d, first, last, hrun, hd, hengine, hunit, hmark⟩

/-- The delivery for the second unit is executed on the first one. -/
theorem called_for_other_unit :
    ¬∀ (s : Setup) (events : List Event) (c c' : Cluster) (e : EngineId) (d : Delivery),
      (build s).run? events = some c → c.calledBy? (.moved (.start e)) = some d →
        c.step? (.start e) = some c' → c.mark d.task = (some d.unit, c.isDummyUnit d.unit) := by
  intro h
  obtain ⟨c, c', d, hrun, hd, hstart, hunit, hmark⟩ := exists_twice
  have hclaim := h memorySetup twiceEvents c c' 1 d hrun hd hstart
  have hsame : some "unit" = some d.unit := congrArg Prod.fst (hmark.symm.trans hclaim)
  rw [hunit] at hsame
  exact absurd hsame (by decide)

end Cluster
end SeriesExec
