import SeriesExec.Proofs.Stores
import SeriesExec.Proofs.UnitOrder

/-!
# Replays — what a store has become through its calls

An engine in memory whose pool has one worker is a store that starts empty and is called for one
delivery after another.  This file defines:

* `Traffic.servedAt` — the deliveries that the driver of an engine has been called for, in order;
* `Traffic.Placed` — drivers are called only for units on engines that are ready;
* `Traffic.Mirrors` — the store of an engine and its results are those of a replay of its calls;
* `Traffic.HeldOutside` — no call of a store waits for a permit;
* `Cluster.callOf` — the call that a store gets for a delivery;
* `Cluster.Answers` — what a driver does when it is called.

Main statements: after every history in which drivers are called by workers only, an engine with one
worker mirrors its calls (`mirrors_of_run?`), and no call of a store waits (`heldOutside_of_run?`).
-/

namespace SeriesExec

open Traffic Store

namespace Traffic

variable {τ τ' : Traffic} {new : List Delivery} {calls : Prop} {e : EngineId} {u : UnitId}

/-! ## Where drivers are called -/

/-- The traffic after a worker of the engine has taken the delivery and has called the driver. -/
def taken (τ : Traffic) (s : EngineSite) (d : Delivery) (rest : List Delivery) (driver : Driver)
    (outcome : Outcome) (isHeld : Bool) : Traffic :=
  { τ.putEngine { s with waiting := ⟨rest⟩, driver := driver } with
    running := τ.running ++ [⟨d, s.id, outcome, isHeld⟩] }

/-- The traffic after a worker has ended its delivery. -/
def freed (τ : Traffic) (r : Run) : Traffic :=
  { τ with
    running := τ.running.filter fun q => q.delivery.id != r.delivery.id
    finished := τ.finished ++ [⟨r.delivery, .executed, r.outcome.result⟩] }

/-- Nothing but the start and the end of a call bears on what drivers have been called for. -/
theorem Shift.served_cases (h : Shift calls τ new τ') :
    τ'.served = τ.served ∨
    (∃ r ∈ τ.running, (∀ q ∈ τ.running, q.delivery.id = r.delivery.id → q = r) ∧ τ' = τ.freed r) ∨
    (calls ∧ ∃ s d rest driver outcome isHeld, τ.engine? s.id = some s ∧
      s.waiting.items = d :: rest ∧ τ' = τ.taken s d rest driver outcome isHeld) := by
  cases h with
  | permit running hcore _ => exact .inl (served_of_running hcore)
  | refuse l d rest fate err _ _ hfate =>
    have hrefused : fate ≠ .executed := by
      rcases hfate with ⟨rfl, _⟩ | ⟨rfl, _⟩ <;> simp
    exact .inl (served_refused hrefused rfl rfl)
  | start hcalls s d rest driver outcome isHeld hs hitems =>
    exact .inr (.inr ⟨hcalls, s, d, rest, driver, outcome, isHeld, hs, hitems, rfl⟩)
  | finish r hr halone => exact .inr (.inl ⟨r, hr, halone, rfl⟩)
  | _ => exact .inl rfl

theorem served_taken (s : EngineSite) (d : Delivery) (rest : List Delivery) (driver : Driver)
    (outcome : Outcome) (isHeld : Bool) :
    (τ.taken s d rest driver outcome isHeld).served = τ.served ++ [(d, outcome.result)] :=
  served_start ⟨d, s.id, outcome, isHeld⟩ rfl rfl

theorem mem_served_of_freed {r : Run} (hr : r ∈ τ.running) {p : Delivery × TaskResult}
    (hp : p ∈ (τ.freed r).served) : p ∈ τ.served := by
  simp only [freed, served, executed, List.filter_append, List.map_append, List.mem_append] at hp ⊢
  rcases hp with (hp | hp) | hp
  · exact .inl hp
  · rw [List.mem_singleton.mp hp]
    exact .inr (List.mem_map_of_mem hr)
  · obtain ⟨q, hq, rfl⟩ := List.mem_map.mp hp
    exact .inr (List.mem_map_of_mem (List.mem_of_mem_filter hq))

/-- The deliveries that the driver of an engine has been called for, with their results. -/
def servedAt (τ : Traffic) (e : EngineId) : List (Delivery × TaskResult) :=
  τ.served.filter fun p => τ.engineOf? p.1.unit == some e

/-- Every delivery that a driver has been called for is of a unit whose engine is ready. -/
def Placed (τ : Traffic) : Prop :=
  ∀ p ∈ τ.served, ∃ e s, τ.engineOf? p.1.unit = some e ∧ τ.engine? e = some s

theorem Placed.shift (horderly : τ.Orderly) (hshift : Shift calls τ new τ') (h : τ.Placed) :
    τ'.Placed := by
  intro p hp
  have hbefore : ∃ e s, τ.engineOf? p.1.unit = some e ∧ τ.engine? e = some s := by
    rcases hshift.served_cases with
      hserved | ⟨r, hr, _, rfl⟩ | ⟨_, s, d, rest, _, _, _, hs, hitems, rfl⟩
    · exact h p (hserved ▸ hp)
    · exact h p (mem_served_of_freed hr hp)
    · rw [served_taken] at hp
      rcases List.mem_append.mp hp with hp | hp
      · exact h p hp
      · -- What a worker takes has waited at the engine of its unit.
        rw [List.mem_singleton.mp hp]
        exact ⟨s.id, s, horderly.pooledAt _ (KeyedList.mem_of_find? hs) d
          (hitems ▸ List.mem_cons_self), hs⟩
  obtain ⟨e, s, hu, hs⟩ := hbefore
  obtain ⟨s', hs', _⟩ := hshift.engine?_some horderly hs
  exact ⟨e, s', hshift.engineOf?_some hu, hs'⟩

theorem Placed.servedAt_eq_nil (h : τ.Placed) (hnone : τ.engine? e = none) :
    τ.servedAt e = [] := by
  refine List.filter_eq_nil_iff.mpr ?_
  intro p hp hat
  obtain ⟨e', s, hu, hs⟩ := h p hp
  obtain rfl : e' = e := Option.some.inj (hu.symm.trans (eq_of_beq hat))
  rw [hnone] at hs
  cases hs

/-! ## What is kept as long as no driver is called -/

/-- As long as no driver is called, what an engine has been called for stays the same, in the same
order if there is one worker. -/
theorem Shift.servedAt_eq (horderly : τ.Orderly) (hplaced : τ.Placed) (h : Shift False τ new τ')
    (hone : τ.OneWorker e) : τ'.servedAt e = τ.servedAt e := by
  -- Units keep their engines, so it is enough to look at the engines before the change.
  have hsame : (τ'.served.filter fun p => τ.engineOf? p.1.unit == some e) = τ.servedAt e →
      (∀ p ∈ τ'.served, p ∈ τ.served) → τ'.servedAt e = τ.servedAt e := by
    intro hserved hold
    refine (List.filter_congr ?_).trans hserved
    intro p hp
    obtain ⟨e', s, hu, _⟩ := hplaced p (hold p hp)
    rw [hu, h.engineOf?_some hu]
  rcases h.served_cases with hserved | ⟨r, hr, halone, rfl⟩ | ⟨hcalls, _⟩
  · exact hsame (hserved ▸ rfl) fun p hp => hserved ▸ hp
  · refine hsame (served_finish halone (fun d => τ.engineOf? d.unit == some e) ?_)
      fun p hp => mem_served_of_freed hr hp
    intro hat
    have hrun := horderly.runningAt r hr
    obtain rfl : r.engine = e := Option.some.inj (hrun.symm.trans (eq_of_beq hat))
    obtain ⟨s, hs⟩ := horderly.runningEngine r hr
    have hfound := KeyedList.find?_of_mem horderly.enginesSorted hs
    refine horderly.running_of_single hr hfound (hone s hfound)
      (fun d => τ.engineOf? d.unit == some r.engine) ?_ hat
    intro q hq hother
    exact Option.some.inj ((horderly.runningAt q hq).symm.trans (eq_of_beq hother))
  · exact hcalls.elim

/-- If the driver of the engine is a store, then its calls have made it out of an empty one, and
their results are those that the deliveries have. -/
def Mirrors [PatternLibrary] (τ : Traffic) (call : Delivery → StoreCall) (e : EngineId) : Prop :=
  ∀ s st, τ.engine? e = some s → s.driver = .store st →
    Store.empty.replay ((τ.servedAt e).map fun p => call p.1) =
      (st, (τ.servedAt e).map fun p => (call p.1, p.2))

theorem Mirrors.shift [PatternLibrary] {call : Delivery → StoreCall} (horderly : τ.Orderly)
    (hplaced : τ.Placed)
    (hshift : Shift False τ new τ') (hone : τ.OneWorker e) (h : τ.Mirrors call e) :
    τ'.Mirrors call e := by
  intro s' st hs' hstore
  rw [hshift.servedAt_eq horderly hplaced hone]
  cases hs : τ.engine? e with
  | none =>
    -- An engine that has just become ready starts with nothing.
    rw [hplaced.servedAt_eq_nil hs, (hshift.engine?_none horderly hs hs').2 st hstore]
    rfl
  | some s =>
    obtain ⟨s₁, hs₁, hsame⟩ := hshift.engine?_some horderly hs
    obtain rfl : s₁ = s' := Option.some.inj (hs₁.symm.trans hs')
    exact h s st hs ((hsame.driver id).symm.trans hstore)

theorem Mirrors.course [PatternLibrary] {call : Delivery → StoreCall}
    (hcourse : Course False τ new τ')
    (hplaced : τ.Placed) (hone : τ'.OneWorker e) (h : τ.Mirrors call e) : τ'.Mirrors call e := by
  refine (hcourse.keeps (P := fun τ => τ.Placed ∧ (τ.OneWorker e → τ.Mirrors call e)) ?_
    ⟨hplaced, fun _ => h⟩).2 hone
  intro τ τ' new horderly hshift h
  refine ⟨h.1.shift horderly hshift, fun hone => ?_⟩
  have hbefore := (Course.single horderly hshift).oneWorker_of hone
  exact (h.2 hbefore).shift horderly h.1 hshift hbefore

/-! ## Waiting -/

/-- A call that waits for a permit is one of an outside driver. -/
def HeldOutside (τ : Traffic) : Prop :=
  ∀ r ∈ τ.running, r.isHeld = true → ∀ s st, τ.engine? r.engine = some s → s.driver ≠ .store st

theorem HeldOutside.of_running (horderly : τ.Orderly) (hshift : Shift False τ new τ')
    (h : τ.HeldOutside) (hheld : ∀ r ∈ τ'.running, r.isHeld = true → r ∈ τ.running) :
    τ'.HeldOutside := by
  intro r hr hwaits s' st hs'
  have hbefore := hheld r hr hwaits
  obtain ⟨s, hs⟩ := horderly.runningEngine r hbefore
  have hfound : τ.engine? r.engine = some s := KeyedList.find?_of_mem horderly.enginesSorted hs
  obtain ⟨s₁, hs₁, hsame⟩ := hshift.engine?_some horderly hfound
  obtain rfl : s₁ = s' := Option.some.inj (hs₁.symm.trans hs')
  rw [hsame.driver id]
  exact h r hbefore hwaits s st hfound

theorem HeldOutside.shift (horderly : τ.Orderly) (hshift : Shift False τ new τ')
    (h : τ.HeldOutside) : τ'.HeldOutside := by
  refine h.of_running horderly hshift ?_
  cases hshift with
  | permit running _ hheld => exact hheld
  | start hcalls => exact hcalls.elim
  | finish r _ _ => exact fun q hq _ => List.mem_of_mem_filter hq
  | _ => exact fun q hq _ => hq

/-! ## What a call does -/

theorem servedAt_taken {s : EngineSite} {d : Delivery} (hat : τ.engineOf? d.unit = some s.id)
    (rest : List Delivery) (driver : Driver) (outcome : Outcome) (isHeld : Bool) :
    (τ.taken s d rest driver outcome isHeld).servedAt e =
      τ.servedAt e ++ if e = s.id then [(d, outcome.result)] else [] := by
  rw [servedAt, served_taken]
  change (List.filter (fun p : Delivery × TaskResult => τ.engineOf? p.1.unit == some e) _) = _
  rw [List.filter_append]
  by_cases he : e = s.id
  · simp [servedAt, hat, he]
  · simp [servedAt, hat, he, Ne.symm he]

end Traffic

namespace Cluster

variable {c c' : Cluster} {e : EngineId}

/-! ## Calls -/

/-- The operators of a task, of which there are none if there is no such task. -/
def operatorsOf (c : Cluster) (t : TaskId) : List Operator :=
  ((c.task? t).map Task.operators).getD []

/-- The call that a store gets for a delivery. -/
def callOf (c : Cluster) (d : Delivery) : StoreCall :=
  ⟨d.task, c.stamp? d.task, c.operatorsOf d.task⟩

theorem operatorsOf_eq {t : TaskId} {x : Task} (hx : c.task? t = some x) :
    c.operatorsOf t = x.operators := by
  rw [operatorsOf, hx]
  rfl

theorem operatorsOf_of_later (h : c.roster.Later c'.roster) {t : TaskId} {x : Task}
    (hx : c.task? t = some x) : c'.operatorsOf t = c.operatorsOf t := by
  obtain ⟨y, hy, hlater⟩ := later_task? h hx
  rw [operatorsOf_eq hx, operatorsOf_eq hy]
  exact hlater.operators_eq

variable [PatternLibrary]

/-- A stamp stays. -/
theorem stamp?_after? (hc : c.Coherent) {e : Event} (hafter : c.after? e = some c') {t : TaskId}
    {u : UnitId} (hu : c.stamp? t = some u) : c'.stamp? t = some u := by
  cases e with
  | asked r =>
    injection hafter with hafter
    subst hafter
    rw [stamp?_handle]
    exact hu
  | moved s =>
    by_cases hs : ∃ v, s = .dispatch v
    · obtain ⟨v, rfl⟩ := hs
      obtain ⟨l, d, rest, hl, _, _, hitems, hdispatch⟩ := dispatch_of_dispatch? hafter
      have hmem : d ∈ l.queue.items := hitems ▸ List.mem_cons_self
      obtain ⟨x, hx, hstorage⟩ :=
        hc.storage d (mem_deliveries_of_queue (mem_units_of_unit? hl) hmem)
      rw [stamp?_dispatch hx hstorage hdispatch, hu]
      split <;> rfl
    · have hsame := stamp?_step? (fun v hv => hs ⟨v, hv⟩) hafter
      rw [hsame]
      exact hu

theorem stamp?_of_run? (hc : c.Coherent) {events : List Event} (hrun : c.run? events = some c')
    {t : TaskId} {u : UnitId} (hu : c.stamp? t = some u) : c'.stamp? t = some u :=
  hc.run?_induction (P := fun c' => c'.stamp? t = some u)
    (fun hc hstamp hafter => stamp?_after? hc hafter hstamp) hu hrun

/-- Once a delivery has left its queue, the call for it is settled. -/
theorem callOf_of_run? (hc : c.Coherent) (hstamped : c.Stamped) {events : List Event}
    (hrun : c.run? events = some c') {d : Delivery} (hd : d ∈ c.traffic.deliveries)
    (hqueued : d ∉ c.traffic.queued) : c'.callOf d = c.callOf d := by
  obtain ⟨u, hu⟩ := Option.isSome_iff_exists.mp ((hstamped.taken d hd).resolve_left hqueued)
  obtain ⟨x, hx, _⟩ := hc.storage d hd
  rw [callOf, callOf, hu, stamp?_of_run? hc hrun hu,
    operatorsOf_of_later (later_of_run? hc hrun) hx]

/-- What a driver does when it is called for a delivery: a store executes the task at once, and an
outside driver follows its script. -/
inductive Answers (c : Cluster) (d : Delivery) : Driver → Driver → Outcome → Bool → Prop where
  | store (st : Store) :
      Answers c d (.store st)
        (.store (st.execute d.task (c.stamp? d.task) (c.operatorsOf d.task)).1)
        (.answer (st.execute d.task (c.stamp? d.task) (c.operatorsOf d.task)).2) false
  | scripted (type : String) (outcome : Outcome) (isHeld : Bool) :
      Answers c d (.scripted type) (.scripted type) outcome isHeld

theorem answers_of_call {s : EngineSite} {d : Delivery} {x : Task} (hx : c.task? d.task = some x)
    (rest : List Delivery) :
    ∃ driver outcome isHeld, c.Answers d s.driver driver outcome isHeld ∧
      ((c.putEngine { s with waiting := ⟨rest⟩ }).call { s with waiting := ⟨rest⟩ } d x).traffic =
        c.traffic.taken s d rest driver outcome isHeld := by
  have hstamp : x.storage?.bind StorageShape.stamp = c.stamp? d.task := by
    rw [stamp?, hx]
    rfl
  rcases s with ⟨id, driver, workers, waiting⟩
  unfold call
  dsimp only
  rw [hstamp, ← operatorsOf_eq hx]
  cases driver with
  | store st =>
    refine ⟨_, _, _, .store st, ?_⟩
    simp only [traffic, taken, Traffic.putEngine, putEngine, KeyedList.insert_insert]
  | scripted type => exact ⟨_, _, _, .scripted type _ _, rfl⟩

theorem answers_of_start? (hc : c.Coherent) (h : c.start? e = some c') :
    ∃ s d rest driver outcome isHeld, s.id = e ∧ c.engine? s.id = some s ∧
      s.waiting.items = d :: rest ∧ c.Answers d s.driver driver outcome isHeld ∧
      c'.traffic = c.traffic.taken s d rest driver outcome isHeld := by
  unfold start? at h
  split at h
  · cases h
  · rename_i s hs
    have hid : s.id = e := hc.sound.orderly.id_of_engine? hs
    subst hid
    split at h
    · split at h
      · cases h
      · rename_i d rest hpop
        injection h with h
        subst h
        have hitems : s.waiting.items = d :: rest.items := Queue.toList_of_pop? hpop
        have hready : c.traffic.engine? s.id = some s := hs
        have hpooled := mem_pooled hready (d := d) (hitems ▸ List.mem_cons_self)
        obtain ⟨x, hx, _⟩ := hc.storage d (by simp [deliveries, hpooled])
        obtain ⟨driver, outcome, isHeld, hanswers, htraffic⟩ :=
          answers_of_call (s := s) hx rest.items
        rw [hx]
        exact ⟨s, d, rest.items, driver, outcome, isHeld, rfl, hs, hitems, hanswers, htraffic⟩
    · cases h

/-- Unless drivers are called past all queues, an event calls no driver, or a worker takes a
delivery and calls the driver for it. -/
theorem course_or_taken_of_after? (hc : c.Coherent) {event : Event}
    (hdirect : ∀ e t, .asked (.callDriver e t) ≠ event) (hafter : c.after? event = some c') :
    (∃ new, Course False c.traffic new c'.traffic) ∨
      ∃ s d rest driver outcome isHeld, c.engine? s.id = some s ∧ s.waiting.items = d :: rest ∧
        c.Answers d s.driver driver outcome isHeld ∧
        c'.traffic = c.traffic.taken s d rest driver outcome isHeld := by
  cases hcalls : event.callsDriver with
  | false =>
    have hnot : event.callsDriver = true → False := fun htrue => by simp [hcalls] at htrue
    exact .inl (course_of_after? hc hnot hafter)
  | true =>
    match event, hcalls with
    | .asked (.callDriver e t), _ => exact absurd rfl (hdirect e t)
    | .moved (.start e), _ =>
      obtain ⟨s, d, rest, driver, outcome, isHeld, _, hall⟩ := answers_of_start? hc hafter
      exact .inr ⟨s, d, rest, driver, outcome, isHeld, hall⟩

/-- A store that is called for one more delivery mirrors that call too. -/
theorem mirrors_taken (hc : c.Coherent) {s : EngineSite} {d : Delivery} {rest : List Delivery}
    {driver : Driver} {outcome : Outcome} {isHeld : Bool} (hs : c.engine? s.id = some s)
    (hitems : s.waiting.items = d :: rest) (hanswers : c.Answers d s.driver driver outcome isHeld)
    {call : Delivery → StoreCall} (hcall : call d = c.callOf d) (h : c.traffic.Mirrors call e) :
    (c.traffic.taken s d rest driver outcome isHeld).Mirrors call e := by
  have hat : c.traffic.engineOf? d.unit = some s.id :=
    hc.sound.orderly.pooledAt _ (KeyedList.mem_of_find? hs) d (hitems ▸ List.mem_cons_self)
  intro s' st' hs' hstore
  rw [servedAt_taken hat]
  have hengine : (c.traffic.taken s d rest driver outcome isHeld).engine? e =
      if e = s.id then some { s with waiting := ⟨rest⟩, driver := driver }
      else c.traffic.engine? e := engine?_putEngine _ _ _
  rw [hengine] at hs'
  by_cases he : e = s.id
  · subst he
    rw [if_pos rfl] at hs' ⊢
    obtain rfl := Option.some.inj hs'
    -- An outside driver stays one, so the driver was a store before.
    cases hdriver : s.driver with
    | scripted type =>
      rw [hdriver] at hanswers
      cases hanswers
      cases hstore
    | store st =>
      rw [hdriver] at hanswers
      cases hanswers
      obtain rfl := Driver.store.inj hstore
      rw [List.map_append, List.map_append, List.map_singleton, List.map_singleton, replay_snoc,
        h s st hs hdriver, hcall]
      rfl
  · rw [if_neg he] at hs' ⊢
    rw [List.append_nil]
    exact h s' st' hs' hstore

theorem heldOutside_taken {s : EngineSite} {d : Delivery} {rest : List Delivery} {driver : Driver}
    {outcome : Outcome} {isHeld : Bool} (hs : c.engine? s.id = some s)
    (hanswers : c.Answers d s.driver driver outcome isHeld) (h : c.traffic.HeldOutside) :
    (c.traffic.taken s d rest driver outcome isHeld).HeldOutside := by
  intro r hr hwaits s' st hs' hstore
  have hengine : (c.traffic.taken s d rest driver outcome isHeld).engine? r.engine =
      if r.engine = s.id then some { s with waiting := ⟨rest⟩, driver := driver }
      else c.traffic.engine? r.engine := engine?_putEngine _ _ _
  rw [hengine] at hs'
  have hold : r ∈ c.running → ∀ s₀ st₀, c.traffic.engine? r.engine = some s₀ →
      s₀.driver ≠ .store st₀ := fun hr => h r hr hwaits
  by_cases he : r.engine = s.id
  · rw [if_pos he] at hs'
    obtain rfl := Option.some.inj hs'
    obtain rfl : driver = .store st := hstore
    -- A store is left by a store, which answers at once.
    generalize hdriver : s.driver = before at hanswers
    cases hanswers with
    | store st₀ =>
      rcases List.mem_append.mp hr with hr | hr
      · exact hold hr s st₀ (he ▸ hs) hdriver
      · rw [List.mem_singleton.mp hr] at hwaits
        cases hwaits
  · rw [if_neg he] at hs'
    rcases List.mem_append.mp hr with hr | hr
    · exact hold hr s' st hs' hstore
    · rw [List.mem_singleton.mp hr] at he
      exact he rfl

/-! ## Histories -/

omit [PatternLibrary] in
theorem placed_blank (s : Setup) : (blank s).traffic.Placed :=
  fun _ hp => (List.not_mem_nil hp).elim

theorem placed_of_run? {s : Setup} {events : List Event} (hrun : (build s).run? events = some c) :
    c.traffic.Placed :=
  traffic_induction (P := Placed) (fun horderly hshift h => h.shift horderly hshift)
    (placed_blank s) hrun

/-- After every history in which drivers are called by workers only, the store of an engine with one
worker is what its calls have made of an empty one. -/
theorem mirrors_of_run? {s : Setup} {events : List Event} (hrun : (build s).run? events = some c)
    (hdirect : ∀ e t, .asked (.callDriver e t) ∉ events) (hone : c.traffic.OneWorker e) :
    c.traffic.Mirrors c.callOf e := by
  refine within_induction (P := fun c₁ => c₁.traffic.Mirrors c.callOf e) hrun ?_ ?_
  · intro event hevent c₁ c₂ hwithin h
    obtain ⟨before, hbefore⟩ := hwithin.before
    obtain ⟨rest, hrest⟩ := hwithin.rest
    have hc := (coherent_build s).run? hbefore
    have hc₂ := hc.after? hwithin.after
    obtain ⟨_, hlater⟩ := course_of_run? hc₂ hrest
    rcases course_or_taken_of_after? hc (fun e t hsame => hdirect e t (hsame ▸ hevent))
      hwithin.after with ⟨new, hcourse⟩ | ⟨site, d, _, _, _, _, hs, hitems, hanswers, htraffic⟩
    · exact h.course hcourse (placed_of_run? hbefore) (hlater.oneWorker_of hone)
    · rw [htraffic]
      refine mirrors_taken hc hs hitems hanswers ?_ h
      -- The delivery has left its queue, so nothing changes its call any more.
      have hrun₁ : c₁.run? (event :: rest) = some c := by
        rw [run?, hwithin.after]
        exact hrest
      have hready : c₁.traffic.engine? site.id = some site := hs
      have hpooled := mem_pooled hready (d := d) (hitems ▸ List.mem_cons_self)
      exact callOf_of_run? hc (stamped_of_run? hbefore) hrun₁ (by simp [deliveries, hpooled])
        (notMem_queued hc.sound (List.mem_append_left _ hpooled))
  · refine Mirrors.course (course_build s) (placed_blank s) ?_ ?_
    · obtain ⟨_, hcourse⟩ := course_of_run? (coherent_build s) hrun
      exact hcourse.oneWorker_of hone
    · intro s' st hs'
      cases hs'

/-- After every history in which drivers are called by workers only, no call of a store waits. -/
theorem heldOutside_of_run? {s : Setup} {events : List Event}
    (hrun : (build s).run? events = some c) (hdirect : ∀ e t, .asked (.callDriver e t) ∉ events) :
    c.traffic.HeldOutside := by
  refine within_induction (P := fun c => c.traffic.HeldOutside) hrun ?_ ?_
  · intro event hevent c₁ c₂ hwithin h
    obtain ⟨before, hbefore⟩ := hwithin.before
    have hc := (coherent_build s).run? hbefore
    rcases course_or_taken_of_after? hc (fun e t hsame => hdirect e t (hsame ▸ hevent))
      hwithin.after with ⟨new, hcourse⟩ | ⟨site, d, _, _, _, _, hs, _, hanswers, htraffic⟩
    · exact hcourse.keeps (fun horderly hshift h => h.shift horderly hshift) h
    · rw [htraffic]
      exact heldOutside_taken hs hanswers h
  · intro r hr
    have hdelivered : r.delivery ∈ (build s).traffic.deliveries := mem_deliveries_of_running hr
    rw [deliveries_build] at hdelivered
    cases hdelivered

end Cluster
end SeriesExec
