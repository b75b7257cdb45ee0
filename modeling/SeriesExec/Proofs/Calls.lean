import SeriesExec.Proofs.Sequential

/-!
# Calls — what a store answers is settled when it is called

A worker that calls a store has its answer at once and keeps it until it ends the delivery, which
nothing can hold up.  So the result of a task is settled when the store is called for it, by the
batches that the unit has then.  This file defines:

* `Traffic.Unheld` — no worker waits for a permit with a delivery;
* `Cluster.CalledOver` — a worker calls a store for a task, over some batches.

Main statement: once nothing moves, a task that a store was called for has the answer of that call
as its result (`result?_of_calledOver`).
-/

namespace SeriesExec

open Traffic Store

namespace Traffic

variable {τ τ' : Traffic} {new : List Delivery} {calls : Prop} {d : Delivery}

/-! ## What workers have -/

theorem mem_served_freed {r : Run}
    (halone : ∀ q ∈ τ.running, q.delivery.id = r.delivery.id → q = r) {p : Delivery × TaskResult}
    (hp : p ∈ τ.served) : p ∈ (τ.freed r).served := by
  simp only [freed, served, executed, List.filter_append, List.map_append, List.mem_append]
  rcases List.mem_append.mp hp with hp | hp
  · exact .inl (.inl hp)
  · obtain ⟨q, hq, rfl⟩ := List.mem_map.mp hp
    by_cases hid : q.delivery.id = r.delivery.id
    · obtain rfl := halone q hq hid
      exact .inl (.inr (by simp))
    · exact .inr (List.mem_map_of_mem (List.mem_filter.mpr ⟨hq, by simpa using hid⟩))

/-- What a driver has been called for stays so, with the result of the call. -/
theorem Shift.served_subset (h : Shift calls τ new τ') : τ.served ⊆ τ'.served := by
  intro p hp
  rcases h.served_cases with
    hserved | ⟨r, _, halone, rfl⟩ | ⟨_, s, d, rest, driver, outcome, isHeld, _, _, rfl⟩
  · rw [hserved]
    exact hp
  · exact mem_served_freed halone hp
  · rw [served_taken]
    exact List.mem_append_left _ hp

/-- No worker waits for a permit with the delivery. -/
def Unheld (τ : Traffic) (d : Delivery) : Prop :=
  ∀ r ∈ τ.running, r.delivery = d → r.isHeld = false

theorem Shift.unheld (h : Shift False τ new τ') (hd : τ.Unheld d) : τ'.Unheld d := by
  cases h with
  | permit running _ hheld =>
    intro r hr hdelivery
    by_contra hwaits
    exact hwaits (hd r (hheld r hr (by simpa using hwaits)) hdelivery)
  | start hcalls => exact hcalls.elim
  | finish r _ _ => exact fun q hq => hd q (List.mem_of_mem_filter hq)
  | _ => exact hd

end Traffic

namespace Cluster

variable {c c' : Cluster} {s : Setup} {events : List Event} {d : Delivery} {t : TaskId}

theorem running_callDriver [PatternLibrary] (c : Cluster) (e : EngineId) (t : TaskId) :
    (c.handle (.callDriver e t)).1.running = c.running := by
  have hcall : ∀ s x, (c.callDriver s t x).1.running = c.running := by
    intro s x
    unfold callDriver
    dsimp only
    split <;> rfl
  unfold handle obey
  dsimp only
  split
  · split
    · rename_i s x _ _
      have hrunning := hcall s x
      split <;> rename_i hpair <;> rw [hpair] at hrunning <;> exact hrunning
    · rfl
  · rfl

/-- A delivery that a driver has been called for waits for no worker. -/
theorem notMem_pooled_of_served (h : c.Sound) {p : Delivery × TaskResult}
    (hp : p ∈ c.traffic.served) : p.1 ∉ c.traffic.pooled := by
  have hnodup : (c.traffic.queued ++ (c.traffic.pooled ++
      (c.traffic.underway ++ c.traffic.past))).Nodup := by
    have hall : c.traffic.deliveries.Nodup := h.numbered.nodup.of_map _
    simpa only [deliveries, List.append_assoc] using hall
  exact fun hpooled => List.disjoint_of_nodup_append hnodup.of_append_right hpooled
    (mem_underway_or_past_of_served hp)

variable [PatternLibrary]

/-- A delivery that has left the queue of its engine is held up by nothing that happens later. -/
theorem unheld_after? (hc : c.Coherent) (hd : d ∉ c.traffic.pooled) {e : Event}
    (h : c.traffic.Unheld d) (hafter : c.after? e = some c') : c'.traffic.Unheld d := by
  cases hcalls : e.callsDriver with
  | false =>
    have hnot : e.callsDriver = true → False := fun htrue => by simp [hcalls] at htrue
    obtain ⟨_, hcourse⟩ := course_of_after? hc hnot hafter
    exact hcourse.keeps (fun _ hshift => hshift.unheld) h
  | true =>
    match e, hcalls with
    | .asked (.callDriver e t), _ =>
      obtain rfl := Option.some.inj hafter
      have hrunning := running_callDriver c e t
      intro r hr
      exact h r (hrunning ▸ hr : r ∈ c.running)
    | .moved (.start e), _ =>
      obtain ⟨site, d', rest, driver, outcome, isHeld, _, hs, hitems, _, htraffic⟩ :=
        answers_of_start? hc hafter
      have hready : c.traffic.engine? site.id = some site := hs
      have hpooled := mem_pooled hready (d := d') (hitems ▸ List.mem_cons_self)
      rw [htraffic]
      intro r hr hdelivery
      rcases List.mem_append.mp hr with hr | hr
      · exact h r hr hdelivery
      · rw [List.mem_singleton.mp hr] at hdelivery
        exact absurd (hdelivery ▸ hpooled) hd

/-- What a call was answered stays, and nothing holds it up. -/
theorem served_of_run? (hc : c.Coherent) {p : Delivery × TaskResult} (hp : p ∈ c.traffic.served)
    (hunheld : c.traffic.Unheld p.1) (hrun : c.run? events = some c') :
    p ∈ c'.traffic.served ∧ c'.traffic.Unheld p.1 :=
  hc.run?_induction (P := fun c => p ∈ c.traffic.served ∧ c.traffic.Unheld p.1)
    (fun hc h hafter => by
      obtain ⟨_, hcourse⟩ := course_of_after? hc (fun _ => True.intro) hafter
      exact ⟨hcourse.keeps (fun _ hshift hp => hshift.served_subset hp) h.1,
        unheld_after? hc (notMem_pooled_of_served hc.sound h.1) h.2 hafter⟩)
    ⟨hp, hunheld⟩ hrun

/-! ## The call of a store -/

/-- In the history a worker calls a store for the task, and the unit that the task is stamped with
has the batches `bs` there. -/
def CalledOver (c : Cluster) (events : List Event) (t : TaskId) (bs : List Batch) : Prop :=
  ∃ first e rest c₁ site st d waiting u, events = first ++ .moved (.start e) :: rest ∧
    c.run? first = some c₁ ∧ c₁.engine? e = some site ∧ site.driver = .store st ∧
    site.waiting.items = d :: waiting ∧ d.task = t ∧ c₁.stamp? t = some u ∧ st.batches u = bs

/-- What has to be looked at in a history to tell that an event of it calls a store. -/
theorem calledOver_of_getElem? {n : Nat} {e : EngineId} {bs : List Batch}
    (hevent : events[n]? = some (.moved (.start e)))
    (h : ∃ c₁ ∈ c.run? (events.take n), ∃ site ∈ c₁.engine? e, ∃ d ∈ site.waiting.items.head?,
      d.task = t ∧ ∃ u ∈ c₁.stamp? t,
        (match site.driver with
          | .store st => decide (st.batches u = bs)
          | .scripted _ => false) = true) : c.CalledOver events t bs := by
  obtain ⟨c₁, hfirst, site, hs, d, hd, htask, u, hu, hbatches⟩ := h
  obtain ⟨waiting, hitems⟩ := List.head?_eq_some_iff.mp hd
  have hsplit : events = events.take n ++ .moved (.start e) :: events.drop (n + 1) := by
    obtain ⟨hlt, hget⟩ := List.getElem?_eq_some_iff.mp hevent
    rw [← hget, List.getElem_cons_drop, List.take_append_drop]
  cases hdriver : site.driver with
  | store st =>
    rw [hdriver] at hbatches
    exact ⟨_, e, _, c₁, site, st, d, waiting, u, hsplit, hfirst, hs, hdriver, hitems, htask, hu,
      of_decide_eq_true hbatches⟩
  | scripted type =>
    rw [hdriver] at hbatches
    cases hbatches

/-- A worker that calls a store has the answer at once. -/
theorem served_of_start? (hc : c.Coherent) {e : EngineId} {site : EngineSite} {st : Store}
    {waiting : List Delivery} (hs : c.engine? e = some site) (hstore : site.driver = .store st)
    (hitems : site.waiting.items = d :: waiting) (h : c.start? e = some c') :
    (d, (Outcome.answer (st.execute d.task (c.stamp? d.task) (c.operatorsOf d.task)).2).result) ∈
      c'.traffic.served ∧ c'.traffic.Unheld d := by
  obtain ⟨site', d', rest, driver, outcome, isHeld, rfl, hs', hitems', hanswers, htraffic⟩ :=
    answers_of_start? hc h
  obtain rfl := Option.some.inj (hs.symm.trans hs')
  obtain ⟨rfl, rfl⟩ := List.cons.inj (hitems.symm.trans hitems')
  rw [hstore] at hanswers
  cases hanswers
  rw [htraffic]
  refine ⟨?_, fun r hr hdelivery => ?_⟩
  · rw [served_taken]
    exact List.mem_append_right _ List.mem_cons_self
  · rcases List.mem_append.mp hr with hr | hr
    · -- Another worker with the same delivery there cannot be.
      have hready : c.traffic.engine? site.id = some site := hs
      have hpooled := mem_pooled hready (d := d) (hitems ▸ List.mem_cons_self)
      have hserved : (d, r.outcome.result) ∈ c.traffic.served :=
        List.mem_append_right _ (List.mem_map.mpr ⟨r, hr, by rw [hdelivery]⟩)
      exact absurd hpooled (notMem_pooled_of_served hc.sound hserved)
    · rw [List.mem_singleton.mp hr]

/-- Once nothing moves, a task that is delivered once and that a store was called for has the answer
of the store to that call as its result. -/
theorem result?_of_calledOver (hrun : (build s).run? events = some c)
    (hresults : ∀ e ∈ events, e.setsResult = false)
    (honce : (c.traffic.deliveries.map Delivery.task).Nodup) (hsettled : c.IsSettled)
    {bs : List Batch} (hcalled : (build s).CalledOver events t bs) :
    ∃ (st : Store) (u : UnitId), st.batches u = bs ∧ c.result? t =
      some (Outcome.answer (st.executeOn u t (c.operatorsOf t)).2).result := by
  obtain ⟨first, e, rest, c₁, site, st, d, waiting, u, rfl, hfirst, hs, hstore, hitems, rfl, hu,
    rfl⟩ := hcalled
  have hboth := hrun
  rw [run?_append, hfirst, Option.bind_some] at hboth
  obtain ⟨c₂, hstart, hrest⟩ := Option.bind_eq_some_iff.mp hboth
  have hc₁ := (coherent_build s).run? hfirst
  have hc := (coherent_build s).run? hrun
  obtain ⟨hanswered, hfree⟩ := served_of_start? hc₁ hs hstore hitems hstart
  obtain ⟨hserved, hunheld⟩ := served_of_run? (hc₁.after? hstart) hanswered hfree hrest
  have hready : c₁.traffic.engine? site.id = some site := by
    rw [hc₁.sound.orderly.id_of_engine? hs]
    exact hs
  have hpooled := mem_pooled hready (d := d) (hitems ▸ List.mem_cons_self)
  obtain ⟨x, hx, _⟩ := hc₁.storage d (by simp [deliveries, hpooled])
  have hoperators : c.operatorsOf d.task = c₁.operatorsOf d.task :=
    operatorsOf_of_later (later_of_run? hc₁ hboth) hx
  refine ⟨st, u, rfl, ?_⟩
  rw [hoperators]
  rw [hu] at hserved
  rcases List.mem_append.mp hserved with hexecuted | hrunning
  · obtain ⟨ending, hending, heq⟩ := List.mem_map.mp hexecuted
    obtain ⟨rfl, hresult⟩ := Prod.mk.inj heq
    have hmem : ending ∈ c.finished := List.mem_of_mem_filter hending
    have hcount := List.count_eq_one_of_mem honce
      (List.mem_map_of_mem (List.mem_append_right _ (List.mem_map_of_mem hmem)))
    rw [List.count, List.countP_map] at hcount
    exact (result?_of_finished hc (storageResults_of_run? hresults hrun) hmem hcount).trans
      (congrArg some hresult)
  · -- A worker that still had the delivery would have to wait for something.
    obtain ⟨r, hr, heq⟩ := List.mem_map.mp hrunning
    have hwaits := isHeld_of_settled hc.sound hsettled hr
    rw [hunheld r hr (Prod.mk.inj heq).1] at hwaits
    cases hwaits

end Cluster
end SeriesExec
