import SeriesExec.Proofs.Broadcast
import SeriesExec.Proofs.Closing
import SeriesExec.Proofs.EventTraffic

/-!
# Shutdown — the queues of the units are frozen, and nothing else is

A shutdown turns the loops of the units off.  It may come between any two events, and anything may
come after it.  This file defines:

* `Traffic.Frozen` — what becomes of the deliveries once the loops are off;
* `Cluster.Concluded` — what the end of a run does to its task, to the follower and to the queues.

Main statement: what a shutdown does to everything that happens after it
(`shutdown_freezes_queues`).  Queues are frozen because with the loops off no small change of the
traffic takes anything out of one (`Shift.frozen`), and nothing else is because all but the loops
goes on as before (`exists_concluded`, `run?_shut`).
-/

namespace SeriesExec

open Traffic Roster

namespace Traffic

variable {τ τ' τ'' : Traffic} {new new' : List Delivery} {calls : Prop} {d : Delivery}

theorem called_subset_handed (τ : Traffic) : τ.called ⊆ τ.handed := by
  intro d hd
  refine mem_handed.mpr (.inr ?_)
  exact (List.mem_append.mp hd).imp_right (List.filter_sublist.map _).mem

/-! ## What a closed traffic does -/

/-- What becomes of a traffic once its loops are off: units keep their phases, and their queues only
get longer; what has left its queue stays out, and nothing else leaves one.  The list has the
deliveries that have come in. -/
structure Frozen (τ : Traffic) (new : List Delivery) (τ' : Traffic) : Prop where
  isClosed : τ'.isClosed = true
  units : τ'.units = τ.units.map fun l => l.receive new
  known : ∀ d ∈ new, (τ.unit? d.unit).isSome
  numbered : new.map Delivery.id = List.range' τ.accepted new.length
  accepted : τ'.accepted = τ.accepted + new.length
  handed : ∀ d, d ∈ τ'.handed ↔ d ∈ τ.handed

theorem Frozen.of_same (hclosed : τ'.isClosed = true) (hunits : τ'.units = τ.units)
    (haccepted : τ'.accepted = τ.accepted) (hhanded : ∀ d, d ∈ τ'.handed ↔ d ∈ τ.handed) :
    Frozen τ [] τ' where
  isClosed := hclosed
  units := hunits.trans (List.map_id'' UnitLoop.receive_nil τ.units).symm
  known _ hd := nomatch hd
  numbered := rfl
  accepted := haccepted
  handed := hhanded

/-- Units do not change their names, so those that are known are known still. -/
theorem Frozen.unit?_eq (h : Frozen τ new τ') (u : UnitId) :
    τ'.unit? u = (τ.unit? u).map fun l => l.receive new := by
  rw [unit?, h.units, List.find?_map]
  rfl

theorem Frozen.trans (h : Frozen τ new τ') (h' : Frozen τ' new' τ'') :
    Frozen τ (new ++ new') τ'' where
  isClosed := h'.isClosed
  units := by
    rw [h'.units, h.units, List.map_map]
    exact List.map_congr_left fun l _ => (l.receive_append new new').symm
  known d hd := by
    rcases List.mem_append.mp hd with hd | hd
    · exact h.known d hd
    · have hknown := h'.known d hd
      rwa [h.unit?_eq, Option.isSome_map] at hknown
  numbered := by
    rw [List.map_append, h.numbered, h'.numbered, h.accepted, List.length_append,
      List.range'_append_1]
  accepted := by rw [h'.accepted, h.accepted, List.length_append, Nat.add_assoc]
  handed d := (h'.handed d).trans (h.handed d)

/-- An engine that is put in anew gives away what does not wait at it any more. -/
theorem mem_pooled_putEngine (horderly : τ.Orderly) {s : EngineSite} (s' : EngineSite)
    (hs : τ.engine? s'.id = some s) (before : List Delivery)
    (hwaiting : s.waiting.items = before ++ s'.waiting.items) :
    d ∈ τ.pooled ↔ d ∈ before ∨ d ∈ (τ.putEngine s').pooled := by
  obtain ⟨others, hpooled, hput⟩ := exists_pooled_perm horderly hs
  rw [hpooled.mem_iff, (hput s' rfl).mem_iff, hwaiting, List.mem_append, List.mem_append,
    List.mem_append, or_assoc]

/-- A run that ends takes its delivery from the worker to what is over. -/
theorem mem_handed_finish {r : Run} (hr : r ∈ τ.running)
    (halone : ∀ q ∈ τ.running, q.delivery.id = r.delivery.id → q = r) :
    d ∈ ({ τ with
      running := τ.running.filter fun q => q.delivery.id != r.delivery.id
      finished := τ.finished ++ [⟨r.delivery, .executed, r.outcome.result⟩] } : Traffic).handed ↔
        d ∈ τ.handed := by
  rw [mem_handed, mem_handed]
  refine or_congr_right ?_
  rw [past, List.map_append, List.mem_append, List.map_singleton, List.mem_singleton]
  constructor
  · rintro (hd | hd | rfl)
    · exact .inl ((List.filter_sublist.map Run.delivery).mem hd)
    · exact .inr hd
    · exact .inl (List.mem_map_of_mem hr)
  · rintro (hd | hd)
    · obtain ⟨q, hq, rfl⟩ := List.mem_map.mp hd
      by_cases hid : q.delivery.id = r.delivery.id
      · exact .inr (.inr (congrArg Run.delivery (halone q hq hid)))
      · exact .inl (List.mem_map_of_mem (List.mem_filter.mpr ⟨hq, bne_iff_ne.mpr hid⟩))
    · exact .inr (.inl hd)

/-- With the loops off, deliveries come to the queues of units, engines become ready, and workers go
on; nothing else happens. -/
theorem Shift.frozen (horderly : τ.Orderly) (h : Shift calls τ new τ')
    (hclosed : τ.isClosed = true) : Frozen τ new τ' := by
  have hopen : τ.isClosed ≠ false := by simp [hclosed]
  cases h with
  | enqueue d hknown hid =>
    refine ⟨hclosed, (UnitLoop.map_receive_singleton τ.units d).symm, ?_, ?_, rfl, fun _ => Iff.rfl⟩
    · exact fun d' hd' => List.mem_singleton.mp hd' ▸ hknown
    · rw [List.map_singleton, hid]
      rfl
  | learn _ _ _ _ hlearn => exact absurd hlearn hopen
  | turn _ _ _ _ hturn => exact absurd hturn hopen
  | refuse _ _ _ _ _ _ _ _ hrefuse => exact absurd hrefuse hopen
  | submit _ _ _ _ _ _ _ _ hsubmit => exact absurd hsubmit hopen
  | offer s hnew hwaiting hdriver =>
    refine .of_same hclosed rfl rfl fun d => ?_
    rw [mem_handed, mem_handed, (pooled_putEngine_new hnew).mem_iff, hwaiting, List.nil_append]
    exact Iff.rfl
  | permit running hcore hheld =>
    refine .of_same hclosed rfl rfl fun d => ?_
    have hunderway : running.map Run.delivery = τ.running.map Run.delivery := by
      have hfirst := congrArg (List.map Prod.fst) hcore
      rwa [List.map_map, List.map_map] at hfirst
    rw [mem_handed, mem_handed, underway, underway, hunderway]
    exact Iff.rfl
  | close => exact .of_same rfl rfl rfl fun _ => Iff.rfl
  | start hcalls s d rest driver outcome isHeld hs hitems =>
    refine .of_same hclosed rfl rfl fun d' => ?_
    -- The delivery goes from the workers' queue to a worker.
    have hpooled := mem_pooled_putEngine (d := d') horderly
      { s with waiting := ⟨rest⟩, driver := driver } hs [d] hitems
    rw [mem_handed, mem_handed, hpooled, List.mem_singleton, underway, List.map_append,
      List.mem_append, List.map_singleton, List.mem_singleton]
    tauto
  | drive hcalls s driver hs =>
    refine .of_same hclosed rfl rfl fun d' => ?_
    have hpooled := mem_pooled_putEngine (d := d') horderly { s with driver := driver } hs [] rfl
    rw [mem_handed, mem_handed, hpooled, List.mem_nil_iff, false_or]
    exact Iff.rfl
  | finish r hr halone => exact .of_same hclosed rfl rfl fun _ => mem_handed_finish hr halone

theorem Course.frozen (h : Course calls τ new τ') (hclosed : τ.isClosed = true) :
    Frozen τ new τ' := by
  induction h with
  | nil τ => exact .of_same hclosed rfl rfl fun _ => Iff.rfl
  | cons horderly hshift _ ih =>
    have hfirst := hshift.frozen horderly hclosed
    exact hfirst.trans (ih hfirst.isClosed)

theorem Frozen.mem_queued (h : Frozen τ new τ') : d ∈ τ'.queued ↔ d ∈ τ.queued ∨ d ∈ new := by
  constructor
  · intro hd
    obtain ⟨m, hm, hitem⟩ := List.mem_flatMap.mp hd
    rw [h.units] at hm
    obtain ⟨l, hl, rfl⟩ := List.mem_map.mp hm
    rcases List.mem_append.mp hitem with hitem | hitem
    · exact .inl (List.mem_flatMap.mpr ⟨l, hl, hitem⟩)
    · exact .inr (List.mem_filter.mp hitem).1
  · rintro (hd | hd)
    · obtain ⟨l, hl, hitem⟩ := List.mem_flatMap.mp hd
      refine List.mem_flatMap.mpr ⟨l.receive new, ?_, List.mem_append_left _ hitem⟩
      exact h.units ▸ List.mem_map_of_mem hl
    · -- It has come to the queue of its unit, which is known.
      obtain ⟨l, hl⟩ := Option.isSome_iff_exists.mp (h.known d hd)
      have hunit : (d.unit == l.id) = true := beq_iff_eq.mpr (Traffic.id_of_unit? hl).symm
      refine List.mem_flatMap.mpr ⟨l.receive new, ?_, ?_⟩
      · exact h.units ▸ List.mem_map_of_mem (Traffic.mem_units_of_unit? hl)
      · exact List.mem_append_right _ (List.mem_filter.mpr ⟨hd, hunit⟩)

end Traffic

namespace Cluster

variable {s : Setup} {before after events : List Event} {c c' c₀ c₁ : Cluster} {t f : TaskId}
  {d : Delivery} {r : Run} {elapsed : Duration} {x : Task}

/-! ## Queues that are frozen -/

theorem frozen_of_run? [PatternLibrary] (hc : c.Coherent) (hclosed : c.isClosed = true)
    (hrun : c.run? events = some c') : ∃ new, c.traffic.Frozen new c'.traffic := by
  obtain ⟨new, hcourse⟩ := course_of_run? hc hrun
  exact ⟨new, hcourse.frozen hclosed⟩

/-- For what is in a queue in the end, no driver has been called. -/
theorem notMem_calls [PatternLibrary] (hc : c.Sound) (hrun : c.run? events = some c')
    (hd : d ∈ c'.traffic.queued) : d ∉ c.calls events := by
  intro hcalled
  have hall := (called_perm_of_run? hc hrun).mem_iff.mpr (List.mem_append_right _ hcalled)
  exact notMem_queued (hc.run? hrun) (called_subset_handed _ hall) hd

/-- A storage task all of whose deliveries are in queues has no result. -/
theorem result?_eq_none_of_queued (hc : c.Sound) (hresults : c.StorageResults)
    (hx : c.task? t = some x) (hstorage : x.isStorage = true)
    (honly : ∀ d ∈ c.traffic.deliveries, d.task = t → d ∈ c.traffic.queued) :
    c.result? t = none := by
  by_contra hsome
  obtain ⟨r, hr⟩ := Option.ne_none_iff_exists'.mp hsome
  obtain ⟨e, he, htask, _⟩ := exists_ending_of_result? hresults hx hstorage hr
  -- The result is that of a delivery which is over, and so in no queue.
  have hpast : e.delivery ∈ c.traffic.past := List.mem_map_of_mem he
  have hqueued := honly e.delivery (List.mem_append_right _ hpast) htask
  exact notMem_queued hc (mem_handed.mpr (.inr (.inr hpast))) hqueued

/-! ## Commits -/

/-- A storage task that is handed over to a known unit comes to the end of its queue. -/
theorem handle_commitTo [PatternLibrary] {u : UnitId} (hx : c.task? t = some x)
    (hstorage : x.isStorage = true)
    (hknows : c.knows u = true) : ∃ c', c.handle (.commitTo t u) = (c', .ok) ∧
      c'.units = c.units.map fun l => l.receive [⟨c.accepted, t, u⟩] := by
  obtain ⟨l, hl⟩ := Option.isSome_iff_exists.mp hknows
  have hfits : c.fits (.commitTo t u) = true := by simp [fits, hx, hstorage]
  refine ⟨{ c with accepted := c.accepted + 1 }.modifyUnit u fun l =>
    { l with queue := l.queue.push ⟨c.accepted, t, u⟩ }, ?_,
    (UnitLoop.map_receive_singleton c.units ⟨c.accepted, t, u⟩).symm⟩
  rw [handle, if_pos hfits, obey, enqueue, hl]
  rfl

/-- The same for a task that goes where it is routed. -/
theorem handle_commit [PatternLibrary] {shape : StorageShape} (hx : c.task? t = some x)
    (hshape : x.storage? = some shape) :
    c.handle (.commit t) = c.handle (.commitTo t (c.route x shape)) := by
  have hfits : c.fits (.commit t) = c.fits (.commitTo t (c.route x shape)) := rfl
  rw [handle, handle, hfits]
  split
  · rw [obey, obey, commit, hx]
    simp only [hshape]
  · rfl

/-! ## Deliveries that have come to an engine -/

/-- The follower of a sync task learns of its end, and comes to the memory stage if that releases
it. -/
theorem told_of_settleTask {y : Task} {result : TaskResult} (hx : c.task? t = some x)
    (hsync : x.isSync = true) (hf : x.follower = some f) (hne : f ≠ t) (hy : c.task? f = some y) :
    (c.settleTask t result).task? f = some y.countParent ∧
      (y.countParent.isReleased = true → f ∈ (c.settleTask t result).memory.queue.items) := by
  have hself : (c.modifyTask t fun x => x.setResult result).task? t =
      some (x.setResult result) := by rw [task?_modifyTask, if_pos rfl, hx, Option.map_some]
  have hother : (c.modifyTask t fun x => x.setResult result).task? f = some y := by
    rw [task?_modifyTask, if_neg hne, hy]
  unfold settleTask
  dsimp only
  generalize (c.modifyTask t fun x => x.setResult result) = c₁ at hself hother
  have htold : (c₁.modifyTask f Task.countParent).task? f = some y.countParent := by
    rw [task?_modifyTask, if_pos rfl, hother, Option.map_some]
  have hrelease : c₁.release t = (c₁.modifyTask f Task.countParent,
      if y.countParent.isReleased then some f else none) := by
    have hfollower : (x.setResult result).follower = some f := hf
    unfold release report
    rw [hself, Option.bind_some, hfollower]
    dsimp only
    rw [htold, Option.any_some]
  have hsettled : (x.setResult result).isSync = true := hsync
  rw [hself, Option.any_some, if_pos hsettled, hrelease]
  by_cases hreleased : y.countParent.isReleased = true
  · rw [if_pos hreleased]
    exact ⟨htold, fun _ => List.mem_append_right _ List.mem_cons_self⟩
  · rw [if_neg hreleased]
    exact ⟨htold, fun h => absurd h hreleased⟩

/-- What the end of the run `r` does: it is over, its task, which is `x`, has a result, a follower
of the task learns of it if the task is sync, and the copies of the task come to the queues. -/
structure Concluded (c : Cluster) (r : Run) (x : Task) (shape : StorageShape) (c' : Cluster) :
    Prop where
  past : r.delivery ∈ c'.traffic.past
  result : c'.result? r.delivery.task = some (x.result.getD r.outcome.result)
  told : ∀ f y, x.isSync = true → x.follower = some f → c.task? f = some y →
    c'.task? f = some y.countParent ∧
      (y.countParent.isReleased = true → f ∈ c'.memory.queue.items)
  copies : Appended c c'
    (List.replicate (c.copiedTo x shape r.outcome).length
      (Task.replicaCopy x.operators shape.fragment))
    (copyDeliveries c.accepted c.tasks.length (c.copiedTo x shape r.outcome))

theorem told_of_completion (hc : c.Coherent) (hcompletion : c.Completion r elapsed c')
    (hx : c.task? r.delivery.task = some x) (hstorage : x.isStorage = true)
    (hsync : x.isSync = true) (hf : x.follower = some f) {y : Task} (hy : c.task? f = some y) :
    c'.task? f = some y.countParent ∧
      (y.countParent.isReleased = true → f ∈ c'.memory.queue.items) := by
  have hne : f ≠ r.delivery.task := by
    rintro rfl
    have hmemory := hc.typed.followers _ x.core _ (task?_roster hx) hf
    have hkind := x.core_isStorage.trans hstorage
    exact HasStorage.not_hasMemory ⟨x.core, task?_roster hx, hkind⟩ hmemory
  -- The monitors and the time that the call took are nothing to the follower.
  let freed := { c with running := c.running.filter fun q => q.delivery.id != r.delivery.id }
  have hobserved := task?_congr (backdrop_observe freed r.delivery.task elapsed)
  have hclose : (c.close r elapsed).task? f = some y.countParent ∧
      (y.countParent.isReleased = true → f ∈ (c.close r elapsed).memory.queue.items) := by
    refine told_of_settleTask (x := x.setSpan elapsed) ?_ hsync hf hne ?_
    · rw [task?_modifyTask, if_pos rfl, hobserved]
      exact congrArg (Option.map fun x => x.setSpan elapsed) hx
    · rw [task?_modifyTask, if_neg hne, hobserved]
      exact hy
  -- Copies are tasks of their own.
  have hcopied : (∀ x, (c.close r elapsed).task? f = some x →
      ((c.close r elapsed).broadcast r.delivery.task).task? f = some x) ∧
        ((c.close r elapsed).broadcast r.delivery.task).memory = (c.close r elapsed).memory := by
    refine ⟨fun x hx => ?_, broadcast_keeps (g := Cluster.memory) (sendCopy_keeps (fun _ _ _ => rfl)
      fun henqueue => congrArg Backdrop.memory (backdrop_enqueue henqueue)) _ _⟩
    rcases broadcast_eq (c.close r elapsed) r.delivery.task with hsame | ⟨task, fragment, us, heq⟩
    · rwa [hsame]
    · rw [heq]
      exact task?_foldl_sendCopy task fragment us hx
  rw [hcompletion.after]
  split
  · exact ⟨hcopied.1 _ hclose.1, hcopied.2 ▸ hclose.2⟩
  · exact hclose

/-- A driver that has answered brings its delivery to an end, whether the loops are on or off. -/
theorem exists_concluded [PatternLibrary] (hc : c.Coherent) (hr : r ∈ c.running)
    (hheld : r.isHeld = false)
    (elapsed : Duration) : ∃ c' x shape, c.step? (.complete r.delivery.id elapsed) = some c' ∧
      c.task? r.delivery.task = some x ∧ x.storage? = some shape ∧ c.Concluded r x shape c' := by
  obtain ⟨c', hstep⟩ : ∃ c', c.step? (.complete r.delivery.id elapsed) = some c' := by
    have hnodup := hc.sound.underway_nodup
    rw [underway, List.map_map] at hnodup
    have hfind : c.running.find? (fun q => q.delivery.id == r.delivery.id) = some r :=
      find?_of_nodup_map hnodup hr
    rw [step?, complete?, hfind]
    simp only [hheld]
    exact ⟨_, rfl⟩
  have hcompletion := completion_of_running hc.sound hr hstep
  obtain ⟨_, x, shape, hx, hshape⟩ := exists_storage_of_completion hc hcompletion
  have hstorage : x.isStorage = true := Option.isSome_of_eq_some hshape
  refine ⟨c', x, shape, hstep, hx, hshape, ?_, ?_, ?_, ?_⟩
  · exact mem_past_of_completion hcompletion
  · exact result?_getD_of_completion hcompletion hx hstorage
  · exact fun f y hsync hf hy => told_of_completion hc hcompletion hx hstorage hsync hf hy
  · exact appended_of_completion hcompletion hx hshape

/-! ## Shutting down -/

theorem frozen_of_shut {new : List Delivery} (h : c.shut.traffic.Frozen new c'.traffic) :
    c.traffic.Frozen new c'.traffic :=
  ⟨h.isClosed, h.units, h.known, h.numbered, h.accepted, h.handed⟩

/-- What a shutdown does, whatever happened before it and happens after it:

* no queue of a unit loses anything; deliveries that come in are put at its end, and the units and
  their phases stay what they are;
* so no driver is called for what is in a queue at the shutdown or comes to one later, and a storage
  task all of whose deliveries are of this kind never gets a result;
* storage tasks can be handed over to known units as before;
* a driver that has answered brings its delivery to an end: the task has its result, its follower
  learns of it, and its copies come to the queues;
* once nothing moves, whatever had left its queue before the shutdown is over, or its driver has not
  answered, or it waits while all workers of its engine are with such drivers; and the memory stage,
  if it is on, has run everything;
* no loop moves any more, a unit that is announced does not become known, and every history without
  these two is what it would have been without the shutdown;
* a further shutdown changes nothing. -/
theorem shutdown_freezes_queues [PatternLibrary] (hbefore : (build s).run? before = some c₀)
    (hshut : c₀.after? (.asked .shutdown) = some c₁) (hafter : c₁.run? after = some c) :
    (∃ new, c₀.traffic.Frozen new c.traffic ∧
      (∀ d ∈ c₀.traffic.queued ++ new,
        d ∈ c.traffic.queued ∧ d ∉ c.traffic.handed ∧ d ∉ c₁.calls after) ∧
      ((∀ e ∈ before ++ after, e.setsResult = false) →
        ∀ t x, c.task? t = some x → x.isStorage = true →
          (∀ d ∈ c.traffic.deliveries, d.task = t → d ∈ c₀.traffic.queued ++ new) →
            c.result? t = none)) ∧
    (∀ t x shape u, c.task? t = some x → x.storage? = some shape → c.knows u = true →
      (∃ c', c.handle (.commitTo t u) = (c', .ok) ∧
        c'.units = c.units.map fun l => l.receive [⟨c.accepted, t, u⟩]) ∧
      (c.route x shape = u → c.handle (.commit t) = c.handle (.commitTo t u))) ∧
    (∀ r ∈ c.running, r.isHeld = false → ∀ elapsed, ∃ c' x shape,
      c.step? (.complete r.delivery.id elapsed) = some c' ∧
        c.task? r.delivery.task = some x ∧ x.storage? = some shape ∧ c.Concluded r x shape c') ∧
    (c.IsSettled → (∀ d ∈ c₀.traffic.handed, d ∈ c.traffic.past ∨
        (∃ r ∈ c.running, r.delivery = d ∧ r.isHeld = true) ∨
          ∃ e site, c.engine? e = some site ∧ d ∈ site.waiting.items ∧
            c.busy e = site.workers ∧ ∀ r ∈ c.running, r.engine = e → r.isHeld = true) ∧
      (c.memory.isStarted = true → c.staged = [])) ∧
    ((∀ step : Step, step.isLoop = true → c.step? step = none) ∧
      (∀ r : Request, r.announcesUnit = true →
        c₁.handle r = ({ (c₀.handle r).1.shut with units := c₀.units }, (c₀.handle r).2)) ∧
      ∀ events, (∀ e ∈ events, e.needsLoops = false) →
        c₁.run? events = (c₀.run? events).map shut) ∧
    c.handle .shutdown = (c, .ok) := by
  obtain rfl : c₀.shut = c₁ := Option.some.inj hshut
  have hc₀ := (coherent_build s).run? hbefore
  have hc₁ : c₀.shut.Coherent := hc₀.after? hshut
  have hc := hc₁.run? hafter
  have hrun : (build s).run? (before ++ .asked .shutdown :: after) = some c := by
    rw [run?_append, hbefore, Option.bind_some, run?, hshut]
    exact hafter
  obtain ⟨new, hshutFrozen⟩ := frozen_of_run? hc₁ rfl hafter
  have hfrozen := frozen_of_shut hshutFrozen
  -- The loops are closed, so what was queued at the shutdown or came later never leaves its queue.
  have hqueued : ∀ d ∈ c₀.traffic.queued ++ new, d ∈ c.traffic.queued :=
    fun d hd => hfrozen.mem_queued.mpr (List.mem_append.mp hd)
  have hclosed : c.isClosed = true := hfrozen.isClosed
  refine ⟨⟨new, hfrozen, fun d hd => ?_, fun hresults t x hx hstorage honly => ?_⟩, ?_, ?_, ?_,
    ⟨?_, fun r => handle_shut_of_announcesUnit c₀, fun events hevents => run?_shut hevents c₀⟩, ?_⟩
  · exact ⟨hqueued d hd, fun hhanded => notMem_queued hc.sound hhanded (hqueued d hd),
      notMem_calls hc₁.sound hafter (hqueued d hd)⟩
  · -- Only an end gives a storage task its result, and no delivery of this task has left its queue.
    have hstored : c.StorageResults := by
      refine storageResults_of_run? (fun e he => ?_) hrun
      rcases List.mem_append.mp he with he | he
      · exact hresults e (List.mem_append_left _ he)
      · rcases List.mem_cons.mp he with rfl | he
        · rfl
        · exact hresults e (List.mem_append_right _ he)
    exact result?_eq_none_of_queued hc.sound hstored hx hstorage fun d hd htask =>
      hqueued d (honly d hd htask)
  · intro t x shape u hx hshape hknows
    exact ⟨handle_commitTo hx (Option.isSome_of_eq_some hshape) hknows,
      fun hroute => hroute ▸ handle_commit hx hshape⟩
  · exact fun r hr hheld elapsed => exists_concluded hc hr hheld elapsed
  · intro hsettled
    refine ⟨fun d hd => blocked_of_handed hc.sound hsettled ((hfrozen.handed d).mpr hd),
      fun hstarted => ?_⟩
    obtain ⟨hqueue, hwaiting, hrunning⟩ :=
      staged_of_settled (memoryWorkers_pos hrun) hstarted hsettled
    rw [staged, hqueue, hwaiting, hrunning]
    rfl
  · intro step hloop
    -- A loop that still moved would be open.
    by_contra hmoves
    obtain ⟨c', hstep⟩ := Option.ne_none_iff_exists'.mp hmoves
    exact Bool.noConfusion (hclosed.symm.trans (isClosed_of_isLoop hloop hstep))
  · have hsame : c.shut = c := by
      rw [shut, ← hclosed]
    exact congrArg (fun c' => (c', Reply.ok)) hsame

/-- After a shutdown a task is made and handed over, a unit is announced, and the write that was
with a driver ends. -/
def lateEvents : List Event :=
  [.asked (.newStorage [] groupFragment true false none), .asked (.commit 1),
    .asked (.notifyUnit none (some (StorageUnit.newReplica "lost" 1 "unit"))),
    .moved (.complete 0 Duration.zero)]

theorem shutdown_freezes_queues_sample : ∃ c₀ c₁ c new,
    (build groupSetup).run? groupEvents = some c₀ ∧ c₀.after? (.asked .shutdown) = some c₁ ∧
    c₁.run? lateEvents = some c ∧ c₀.traffic.Frozen new c.traffic ∧
    (c.result? 0).isSome = true ∧ c.result? 1 = none ∧ c.handle .shutdown = (c, .ok) := by
  obtain ⟨c₀, hbefore, c₁, hshut, c, hafter, hended, ⟨x, hx, hstorage⟩, honly⟩ :
      ∃ c₀ ∈ (build groupSetup).run? groupEvents, ∃ c₁ ∈ c₀.after? (.asked .shutdown),
        ∃ c ∈ c₁.run? lateEvents, (c.result? 0).isSome = true ∧
          (∃ x ∈ c.task? 1, x.isStorage = true) ∧
          ∀ d ∈ c.traffic.deliveries, d.task = 1 → d ∈ c.traffic.queued := by
    decide
  obtain ⟨⟨new, hfrozen, _, hnone⟩, _, _, _, _, hagain⟩ :=
    shutdown_freezes_queues hbefore hshut hafter
  refine ⟨c₀, c₁, c, new, hbefore, hshut, hafter, hfrozen, hended, ?_, hagain⟩
  refine hnone (by decide) 1 x hx hstorage fun d hd htask => ?_
  exact List.mem_append.mpr (hfrozen.mem_queued.mp (honly d hd htask))

end Cluster
end SeriesExec
