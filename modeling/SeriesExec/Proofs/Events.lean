import SeriesExec.Proofs.Acceptance

/-!
# Events — every event is a transfer

This file goes through everything that can happen to a cluster and says what it does to the
deliveries.  It defines `Cluster.calledBy?`, the delivery for which an event calls a driver, and
`Cluster.Sound`, the traffic that every history keeps.

Main statements: an event is a transfer (`orderly_transfer_of_after?`), so it keeps the traffic
sound (`Sound.after?`, `Sound.run?`).
-/

namespace SeriesExec

open Traffic

namespace Cluster

variable {c c' : Cluster}

/-- Every delivery is in one place, and in the place where it belongs. -/
structure Sound (c : Cluster) : Prop where
  orderly : c.traffic.Orderly
  numbered : c.traffic.Numbered

theorem Sound.underway_nodup (h : c.Sound) : (c.traffic.underway.map Delivery.id).Nodup :=
  h.numbered.nodup.sublist (List.Sublist.map _
    ((List.sublist_append_right _ _).trans (List.sublist_append_left _ _)))

/-- A worker is known by the number of its delivery. -/
theorem Sound.run_eq (h : c.Sound) {r q : Run} (hr : r ∈ c.running) (hq : q ∈ c.running)
    (hid : r.delivery.id = q.delivery.id) : r = q := by
  have hnodup := h.underway_nodup
  rw [underway, List.map_map] at hnodup
  exact List.inj_on_of_nodup_map hnodup hr hq hid

/-- The delivery for which an event calls a driver. -/
def calledBy? (c : Cluster) : Event → Option Delivery
  | .moved (.start e) => (c.engine? e).bind fun s => s.waiting.items.head?
  | _ => none

/-! ## Loops -/

theorem traffic_reject (c : Cluster) (d : Delivery) (fate : Fate) (e : Error) :
    (c.reject d fate e).traffic =
      { c.traffic with finished := c.finished ++ [⟨d, fate, .error e⟩] } := by
  have hsettle := traffic_settleTask c d.task (.error e)
  have hfinished : (c.settleTask d.task (.error e)).finished = c.finished :=
    congrArg Traffic.finished hsettle
  change ({ (c.settleTask d.task (.error e)).traffic with
    finished := (c.settleTask d.task (.error e)).finished ++ _ } : Traffic) = _
  rw [hsettle, hfinished]

/-- A loop that takes a delivery out of its queue leaves an orderly traffic with all the others. -/
theorem orderly_takeFirst (h : c.traffic.Orderly) {l : UnitLoop} {d : Delivery}
    {rest : List Delivery} (hl : l ∈ c.units) (hitems : l.queue.items = d :: rest) :
    (c.takeFirst l d rest).traffic.Orderly ∧
      c.traffic.queued.Perm (d :: (c.takeFirst l d rest).traffic.queued) := by
  refine ⟨h.mapUnit (fun _ => rfl) (fun _ => rfl) ?_, ?_⟩
  · intro m hm hmid e he
    have hunit := h.queuedAt l hl e
    rw [hitems] at hunit
    exact hunit (List.mem_cons_of_mem d he)
  · rcases exists_queued_perm h.unitsNodup hl with ⟨others, hbefore, hafter⟩
    rw [hitems] at hbefore
    exact hbefore.trans (List.Perm.cons d (hafter fun m => { m with queue := ⟨rest⟩ }).symm)

theorem accepts_serve (h : c.traffic.Orderly) {l l' : UnitLoop} (hl : l' ∈ c.units)
    (hid : l'.id = l.id) : Accepts c.traffic (c.serve l).traffic [] := by
  have hserve := Accepts.mapUnit h hl (f := fun m => { m with phase := .serving })
    (fun _ => rfl) (fun _ => rfl) fun _ => rfl
  rw [hid] at hserve
  exact hserve

theorem mem_units_takeFirst {l : UnitLoop} (hl : l ∈ c.units) (d : Delivery)
    (rest : List Delivery) : { l with queue := ⟨rest⟩ } ∈ (c.takeFirst l d rest).units :=
  List.mem_map.mpr ⟨l, hl, if_pos rfl⟩

/-- Neither the taking nor the serving sends the unit to another engine. -/
theorem engineOf?_serve_takeFirst (c : Cluster) (l : UnitLoop) (d : Delivery)
    (rest : List Delivery) :
    ((c.takeFirst l d rest).serve l).traffic.engineOf? l.id = c.traffic.engineOf? l.id := by
  have htaken : (c.takeFirst l d rest).traffic.engineOf? l.id = c.traffic.engineOf? l.id :=
    engineOf?_mapUnit c.traffic l.id (f := fun m => { m with queue := ⟨rest⟩ })
      (fun _ => rfl) (fun _ => rfl) l.id
  have hserved : ((c.takeFirst l d rest).serve l).traffic.engineOf? l.id =
      (c.takeFirst l d rest).traffic.engineOf? l.id :=
    engineOf?_mapUnit (c.takeFirst l d rest).traffic l.id
      (f := fun m => { m with phase := .serving }) (fun _ => rfl) (fun _ => rfl) l.id
  exact hserved.trans htaken

theorem orderly_transfer_of_dispatch (h : c.traffic.Orderly) {l : UnitLoop} {d : Delivery}
    {rest : List Delivery} (hl : c.unit? l.id = some l) (hitems : l.queue.items = d :: rest)
    (hd : c.Dispatch l d rest c') :
    c'.traffic.Orderly ∧ Transfer c.traffic c'.traffic [] none ∧
      c.traffic.queued.Perm (d :: c'.traffic.queued) := by
  have hmem : l ∈ c.units := mem_units_of_unit? hl
  rcases orderly_takeFirst h hmem hitems with ⟨horderly, hqueued⟩
  -- A loop that finds its engine ready remembers that; this moves no delivery.
  have hserve : Accepts (c.takeFirst l d rest).traffic
      ((c.takeFirst l d rest).serve l).traffic [] :=
    accepts_serve horderly (mem_units_takeFirst hmem d rest) rfl
  have hserved : c.traffic.queued.Perm
      (d :: ((c.takeFirst l d rest).serve l).traffic.queued) :=
    hqueued.trans (List.Perm.cons d (by simpa using hserve.queued.symm))
  cases hd with
  | notReady hengine =>
    rw [traffic_reject]
    exact ⟨horderly.of_eq rfl rfl rfl, .reject _ (by simp) hqueued (List.Perm.refl _) rfl rfl rfl,
      hqueued⟩
  | overloaded s hengine hfull =>
    rw [traffic_reject]
    exact ⟨hserve.orderly.of_eq rfl rfl rfl,
      .reject _ (by simp) hserved (List.Perm.refl _) rfl rfl rfl, hserved⟩
  | submitted s hengine hroom =>
    have hfind : ((c.takeFirst l d rest).serve l).traffic.engine? l.engine = some s := hengine
    have hsite : (l.engine, s) ∈ c.engines := KeyedList.mem_of_find? hengine
    have hid : s.id = l.engine := h.engineNamed _ hsite
    have hunit : d.unit = l.id := h.queuedAt l hmem d (hitems ▸ List.mem_cons_self)
    have hof : ((c.takeFirst l d rest).serve l).traffic.engineOf? d.unit = some l.engine := by
      rw [hunit, engineOf?_serve_takeFirst, engineOf?_of_unit? hl]
    rcases exists_pooled_perm hserve.orderly hfind with ⟨others, hbefore, hafter⟩
    refine ⟨?_, .submit d hserved ?_ rfl rfl rfl, hserved⟩
    · refine hserve.orderly.putEngine (s := { s with waiting := s.waiting.push d })
        (h.staffed _ hsite) ?_ ?_
      · rw [hid]
        exact h.busyLe _ hsite
      · intro e he
        rcases List.mem_append.mp he with he | he
        · rw [hid]
          exact hserve.orderly.pooledAt _ (KeyedList.mem_of_find? hfind) e he
        · rw [List.mem_singleton.mp he, hid]
          exact hof
    · calc
        List.Perm _ (s.waiting.items ++ [d] ++ others) :=
          hafter { s with waiting := s.waiting.push d } hid
        List.Perm _ (d :: (s.waiting.items ++ others)) := by
          rw [List.append_assoc]
          exact List.perm_middle
        List.Perm _ (d :: ((c.takeFirst l d rest).serve l).traffic.pooled) :=
          List.Perm.cons d hbefore.symm

/-! ## Workers -/

theorem orderly_transfer_of_start (h : c.traffic.Orderly) {s : EngineSite} {d : Delivery}
    {rest : List Delivery} (hs : c.Start s d rest c') :
    c'.traffic.Orderly ∧ Transfer c.traffic c'.traffic [] (some d) := by
  rcases hs with ⟨hengine, hfree, hwaiting, _, driver, outcome, isHeld, htraffic⟩
  have hsite : (s.id, s) ∈ c.engines := KeyedList.mem_of_find? hengine
  -- The engine without the delivery and with the driver that the call has left.
  let s' : EngineSite := { s with waiting := ⟨rest⟩, driver := driver }
  have hd : c.traffic.engineOf? d.unit = some s.id :=
    h.pooledAt _ hsite d (hwaiting ▸ List.mem_cons_self)
  have hput : (c.traffic.putEngine s').Orderly := by
    refine h.putEngine (h.staffed _ hsite) (h.busyLe _ hsite) ?_
    intro e he
    exact h.pooledAt _ hsite e (hwaiting ▸ List.mem_cons_of_mem d he)
  have hnew : (s.id, s') ∈ (c.traffic.putEngine s').engines :=
    KeyedList.mem_of_find? ((engine?_putEngine c s' s.id).trans (if_pos rfl))
  rcases exists_pooled_perm h hengine with ⟨others, hbefore, hafter⟩
  rw [htraffic]
  refine ⟨hput.setRunning ?_ ?_, .start d rfl ?_ ?_ rfl rfl⟩
  · intro r hr
    rcases List.mem_append.mp hr with hr | hr
    · exact ⟨h.runningAt r hr, hput.runningEngine r hr⟩
    · rw [List.mem_singleton.mp hr]
      exact ⟨hd, s', hnew⟩
  · intro e he
    rw [List.countP_append, List.countP_singleton]
    -- One more worker of `s` is busy, and one was free; all other engines are as busy as before.
    by_cases hid : e.1 = s.id
    · have he' : e.2 = s' := by
        have hfind := KeyedList.find?_of_mem hput.enginesSorted he
        rw [hid] at hfind
        have hself := KeyedList.find?_of_mem hput.enginesSorted hnew
        exact Option.some.inj (hfind.symm.trans hself)
      rw [he', hid, if_pos (beq_self_eq_true s.id)]
      exact hfree
    · rw [if_neg (by simpa using Ne.symm hid), Nat.add_zero]
      exact hput.busyLe e he
  · rw [hwaiting] at hbefore
    exact hbefore.trans (List.Perm.cons d (hafter s' rfl).symm)
  · exact List.map_append

/-- A worker that has ended a delivery only makes copies after that. -/
theorem accepts_completion {r : Run} {elapsed : Duration}
    (h : (c.close r elapsed).traffic.Orderly) (hc : c.Completion r elapsed c') :
    ∃ new, Accepts (c.close r elapsed).traffic c'.traffic new ∧ c'.StorageOnly new := by
  rw [hc.after]
  split
  · exact accepts_broadcast h r.delivery.task
  · exact accepts_nothing (.refl h)

theorem orderly_close (h : c.traffic.Orderly) (r : Run) (elapsed : Duration) :
    (c.close r elapsed).traffic.Orderly := by
  have hkept : Traffic.Orderly
      { c.traffic with running := c.running.filter fun q => q.delivery.id != r.delivery.id } := by
    refine h.setRunning ?_ ?_
    · intro q hq
      have hq : q ∈ c.running := List.mem_of_mem_filter hq
      exact ⟨h.runningAt q hq, h.runningEngine q hq⟩
    · intro e he
      exact Nat.le_trans (List.filter_sublist.countP_le) (h.busyLe e he)
  rw [traffic_close]
  exact hkept.of_eq rfl rfl rfl

theorem orderly_transfer_of_completion (h : c.Sound) {r : Run} {elapsed : Duration}
    (hc : c.Completion r elapsed c') :
    ∃ new, c'.traffic.Orderly ∧ Transfer c.traffic c'.traffic new none ∧ c'.StorageOnly new := by
  have hmem : r ∈ c.running := List.mem_of_find?_eq_some hc.found
  rcases accepts_completion (orderly_close h.orderly r elapsed) hc with ⟨new, haccepts, hstorage⟩
  -- The copies come in after the end, so all of it together is one transfer.
  rw [traffic_close] at haccepts
  refine ⟨new, haccepts.orderly, .finish ⟨r.delivery, .executed, r.outcome.result⟩ new rfl
    haccepts.queued haccepts.pooled ?_ haccepts.finished haccepts.numbered haccepts.accepted,
    hstorage⟩
  rw [haccepts.underway]
  exact underway_perm_of_mem h.underway_nodup hmem

/-! ## All events -/

theorem accepts_orFault (h : c.traffic.Orderly) {r : Except Fault Cluster}
    (hr : ∀ c', r = .ok c' → Accepts c.traffic c'.traffic []) :
    Accepts c.traffic (c.orFault r).1.traffic [] := by
  cases r with
  | ok c' => exact hr c' rfl
  | error f => exact .refl h

/-- A request brings in the deliveries that it hands over, and nothing else changes place. -/
theorem accepts_obey [PatternLibrary] (h : c.traffic.Orderly) {r : Request}
    (hfits : c.fits r = true) :
    ∃ new, Accepts c.traffic (c.obey r).1.traffic new ∧ (c.obey r).1.StorageOnly new := by
  cases r with
  | addEngine e => exact accepts_nothing (accepts_orFault h fun _ => accepts_addEngine h)
  | addUnit u => exact accepts_nothing (accepts_orFault h fun _ => accepts_addUnit h)
  | notifyUnit before after =>
    exact accepts_nothing (accepts_foldl (fun call h => accepts_unitCalled h call) _ h)
  | notifyEngine before after =>
    exact accepts_nothing (accepts_foldl (fun call h => accepts_engineCalled h call) _ h)
  | offerEngine e =>
    unfold obey
    dsimp only
    split
    · rename_i hoffer
      exact accepts_nothing (accepts_offerEngine h hoffer)
    · exact accepts_nothing (Accepts.refl h)
  | callDriver e t =>
    unfold obey
    dsimp only
    split
    · rename_i s task hs ht
      have hcall := accepts_callDriver h hs t task
      split <;> rename_i hpair <;> rw [hpair] at hcall <;> exact accepts_nothing hcall
    · exact accepts_nothing (Accepts.refl h)
  | commit t =>
    unfold obey
    dsimp only
    cases hcommit : c.commit t with
    | ok c' => exact accepts_commit h hcommit
    | error e => exact accepts_nothing (Accepts.refl h)
  | commitTo t u =>
    unfold obey
    dsimp only
    cases henqueue : c.enqueue u t with
    -- A request for a task that is no storage task does not fit.
    | ok c' => exact accepts_sent h ((Option.any_eq_true _ _).mp hfits) henqueue
    | error e => exact accepts_nothing (Accepts.refl h)
  | commitAll ts =>
    rcases accepts_commitAll ts h with ⟨new, haccepts, hstorage⟩
    unfold obey
    dsimp only
    split <;> rename_i hpair <;> rw [hpair] at haccepts hstorage <;>
      exact ⟨new, haccepts, hstorage⟩
  | openGate type n => exact accepts_nothing (accepts_openGate h type n)
  | shutdown => exact accepts_nothing (.of_same h rfl rfl rfl rfl rfl)
  | dropExecutor => exact accepts_nothing (.of_same h rfl rfl rfl rfl rfl)
  | addMemory ts => exact accepts_nothing (.of_eq h (traffic_foldl_addMemory ts c))
  | startMemory => exact accepts_nothing (.of_eq h rfl)
  | stopMemory => exact accepts_nothing (.of_eq h rfl)
  | takeNotices => exact accepts_nothing (.of_eq h rfl)
  | takeStats => exact accepts_nothing (.of_eq h rfl)
  | _ => exact accepts_nothing (.of_eq h (traffic_obey c rfl))

theorem accepts_handle [PatternLibrary] (h : c.traffic.Orderly) (r : Request) :
    ∃ new, Accepts c.traffic (c.handle r).1.traffic new ∧ (c.handle r).1.StorageOnly new := by
  unfold handle
  split
  · rename_i hfits
    exact accepts_obey h hfits
  · exact accepts_nothing (Accepts.refl h)

theorem accepts_resolve? (h : c.traffic.Orderly) {u : UnitId} (hstep : c.resolve? u = some c') :
    Accepts c.traffic c'.traffic [] := by
  rcases serve_of_resolve? hstep with ⟨l, hl, _, _, rfl⟩
  exact accepts_serve h hl rfl

theorem accepts_giveUp? (h : c.traffic.Orderly) {u : UnitId} (hstep : c.giveUp? u = some c') :
    Accepts c.traffic c'.traffic [] := by
  rcases resign_of_giveUp? hstep with ⟨l, hl, _, _, rfl⟩
  exact Accepts.mapUnit h hl (fun _ => rfl) (fun _ => rfl) fun _ => rfl

theorem traffic_admitMemory? (hstep : c.admitMemory? = some c') : c'.traffic = c.traffic := by
  rcases admitted_of_admitMemory? hstep with ⟨t, rest, _, _, rfl⟩
  rfl

theorem traffic_startMemory? (hstep : c.startMemory? = some c') : c'.traffic = c.traffic := by
  rcases started_of_startMemory? hstep with ⟨t, rest, _, _, rfl⟩
  rfl

section

variable [PatternLibrary]

/-- A move of a loop or a worker is a transfer. -/
theorem orderly_transfer_of_step? (h : c.Sound) {s : Step} (hstep : c.step? s = some c') :
    ∃ new, c'.traffic.Orderly ∧ Transfer c.traffic c'.traffic new (c.calledBy? (.moved s)) ∧
      c'.StorageOnly new := by
  -- Moves that take no delivery are transfers in which nothing comes in.
  have haccept : Accepts c.traffic c'.traffic [] →
      ∃ new, c'.traffic.Orderly ∧ Transfer c.traffic c'.traffic new none ∧ c'.StorageOnly new :=
    fun haccepts => ⟨[], haccepts.orderly, .accept [] haccepts, fun _ hd => nomatch hd⟩
  cases s with
  | resolve u => exact haccept (accepts_resolve? h.orderly hstep)
  | giveUp u => exact haccept (accepts_giveUp? h.orderly hstep)
  | dispatch u =>
    rcases dispatch_of_dispatch? hstep with ⟨l, d, rest, hl, _, _, hitems, hdispatch⟩
    obtain ⟨horderly, htransfer, _⟩ :=
      orderly_transfer_of_dispatch h.orderly (id_of_unit? hl ▸ hl) hitems hdispatch
    exact ⟨[], horderly, htransfer, fun _ hd => nomatch hd⟩
  | start e =>
    rcases start_of_start? h.orderly hstep with ⟨s, d, rest, rfl, hstart⟩
    have hcalled : c.calledBy? (.moved (.start s.id)) = some d := by
      simp [calledBy?, hstart.engine, hstart.waiting]
    rw [hcalled]
    rcases orderly_transfer_of_start h.orderly hstart with ⟨horderly, htransfer⟩
    exact ⟨[], horderly, htransfer, fun _ hd => nomatch hd⟩
  | complete d elapsed =>
    rcases completion_of_complete? hstep with ⟨r, _, hcompletion⟩
    exact orderly_transfer_of_completion h hcompletion
  | admitMemory => exact haccept (.of_eq h.orderly (traffic_admitMemory? hstep))
  | startMemory => exact haccept (.of_eq h.orderly (traffic_startMemory? hstep))
  | runMemory t elapsed => exact haccept (.of_eq h.orderly (traffic_runMemory? hstep))

/-- Whatever happens, deliveries are accepted, or one goes on to the next of its places. -/
theorem orderly_transfer_of_after? (h : c.Sound) {e : Event} (hafter : c.after? e = some c') :
    ∃ new, c'.traffic.Orderly ∧ Transfer c.traffic c'.traffic new (c.calledBy? e) ∧
      c'.StorageOnly new := by
  cases e with
  | asked r =>
    injection hafter with hafter
    subst hafter
    rcases accepts_handle h.orderly r with ⟨new, haccepts, hstorage⟩
    exact ⟨new, haccepts.orderly, .accept new haccepts, hstorage⟩
  | moved s => exact orderly_transfer_of_step? h hafter

theorem Sound.after? (h : c.Sound) {e : Event} (hafter : c.after? e = some c') : c'.Sound := by
  rcases orderly_transfer_of_after? h hafter with ⟨new, horderly, htransfer, _⟩
  exact ⟨horderly, htransfer.numbered h.numbered⟩

/-! ## Histories -/

/-- What every event of a kind keeps, a history of such events keeps. -/
theorem run?_induction {P : Cluster → Prop} {A : Event → Prop}
    (hstep : ∀ {c c' : Cluster} {e : Event}, A e → P c → c.after? e = some c' → P c')
    {events : List Event} (hallowed : ∀ e ∈ events, A e) (hstart : P c)
    (hrun : c.run? events = some c') : P c' := by
  induction events generalizing c with
  | nil =>
    injection hrun with hrun
    exact hrun ▸ hstart
  | cons e rest ih =>
    rcases Option.bind_eq_some_iff.mp hrun with ⟨c₁, hafter, hrest⟩
    exact ih (fun e he => hallowed e (List.mem_cons_of_mem _ he))
      (hstep (hallowed e List.mem_cons_self) hstart hafter) hrest

theorem Sound.run? (h : c.Sound) {events : List Event} (hrun : c.run? events = some c') :
    c'.Sound :=
  run?_induction (P := Sound) (A := fun _ => True) (fun _ h hafter => h.after? hafter)
    (fun _ _ => trivial) h hrun

/-- What every event keeps of a sound cluster, a history keeps. -/
theorem Sound.run?_induction {P : Cluster → Prop}
    (hstep : ∀ {c c' : Cluster} {e : Event}, c.Sound → P c → c.after? e = some c' → P c')
    (h : c.Sound) (hstart : P c) {events : List Event} (hrun : c.run? events = some c') :
    P c' := by
  have hboth : c'.Sound ∧ P c' :=
    Cluster.run?_induction (P := fun c => c.Sound ∧ P c) (A := fun _ => True)
      (fun _ hc hafter => ⟨hc.1.after? hafter, hstep hc.1 hc.2 hafter⟩) (fun _ _ => trivial)
      ⟨h, hstart⟩ hrun
  exact hboth.2

end

theorem orderly_blank (s : Setup) : (blank s).traffic.Orderly := by
  -- There is nothing yet that could be out of order.
  refine ⟨List.Pairwise.nil, List.Pairwise.nil, ?_, ?_, ?_, ?_, ?_, ?_, ?_⟩ <;>
    exact fun _ h => nomatch h

theorem accepts_seedEngine (h : c.traffic.Orderly) (e : StorageEngine) :
    Accepts c.traffic (c.seedEngine e).traffic [] := by
  unfold seedEngine
  split
  · rename_i hadd
    exact accepts_addEngine h hadd
  · exact .refl h

/-- A new cluster has accepted nothing yet. -/
theorem accepts_launch (s : Setup) (factories : List (String × Factory))
    (given : List StorageEngine) :
    Accepts (blank s).traffic (launch s factories given).traffic [] := by
  have hseeded := accepts_foldl (f := seedEngine) (fun e h => accepts_seedEngine h e)
    (s.engines.map Prod.fst) (c := bare s factories) (orderly_blank s)
  have hready := accepts_foldl (f := tryEngine) (fun e h => accepts_tryEngine h e) given
    hseeded.orderly
  unfold launch
  dsimp only
  -- The three folds run one after the other; the hook is set between the last two.
  generalize given.foldl tryEngine ((s.engines.map Prod.fst).foldl seedEngine
    (bare s factories)) = ready at hready ⊢
  have hlearnt := accepts_foldl (f := learnUnit) (fun u h => accepts_learnUnit h u)
    ((ready.catalog.addHook executorHook).engineList.filterMap StorageEngine.dummyUnit?)
    (c := { ready with catalog := ready.catalog.addHook executorHook }) hready.orderly
  exact (hseeded.trans hready).trans hlearnt

theorem sound_launch (s : Setup) (factories : List (String × Factory))
    (given : List StorageEngine) : (launch s factories given).Sound :=
  have haccepts := accepts_launch s factories given
  ⟨haccepts.orderly, (Transfer.accept [] haccepts).numbered (List.Perm.refl [])⟩

theorem deliveries_launch (s : Setup) (factories : List (String × Factory))
    (given : List StorageEngine) : (launch s factories given).traffic.deliveries = [] :=
  List.Perm.eq_nil (Transfer.accept [] (accepts_launch s factories given)).deliveries_perm

theorem accepts_build (s : Setup) : Accepts (blank s).traffic (build s).traffic [] :=
  accepts_launch s _ _

theorem sound_build (s : Setup) : (build s).Sound :=
  sound_launch s _ _

theorem deliveries_build (s : Setup) : (build s).traffic.deliveries = [] :=
  deliveries_launch s _ _

end Cluster
end SeriesExec
