import SeriesExec.Proofs.Copies
import SeriesExec.Proofs.Settings
import SeriesExec.Proofs.TrafficSteps

/-!
# Event traffic — every event is a row of shifts

This file goes through everything that can happen to a cluster and says by which small changes of
the traffic it does so.  It defines:

* `Cluster.Routed` and `Cluster.Sends` — the deliveries that a request may bring in;
* `Cluster.Event.callsDriver` — the event calls a driver, from a worker or past all queues.

Main statements: a request brings in nothing but what it sends (`course_handle`), the end of a
delivery brings in the copies of its task (`course_completion`), and every event is a course
(`course_of_after?`), so what every shift keeps a history keeps (`traffic_induction`).
-/

namespace SeriesExec

open Traffic

namespace Cluster

variable {c c' : Cluster} {calls : Prop}

/-! ## Handing over -/

/-- The delivery goes to the unit to which its task is routed. -/
def Routed (c : Cluster) (d : Delivery) : Prop :=
  ∃ x s, c.task? d.task = some x ∧ x.storage? = some s ∧ d.unit = c.route x s

/-- What a request may bring in: the tasks that it commits, each on the unit to which it is routed,
or on the unit that the request names. -/
def Sends (c : Cluster) : Request → Delivery → Prop
  | .commit t, d => d.task = t ∧ c.Routed d
  | .commitAll ts, d => d.task ∈ ts ∧ c.Routed d
  | .commitTo t u, d => d.task = t ∧ d.unit = u
  | _, _ => False

theorem course_enqueue (h : c.traffic.Orderly) {u : UnitId} {t : TaskId}
    (henqueue : c.enqueue u t = .ok c') :
    Course calls c.traffic [⟨c.accepted, t, u⟩] c'.traffic := by
  unfold enqueue at henqueue
  split at henqueue
  · cases henqueue
  · rename_i l hl
    injection henqueue with henqueue
    subst henqueue
    exact .single h (.enqueue ⟨c.accepted, t, u⟩ (Option.isSome_of_eq_some hl) rfl)

theorem course_commit (h : c.traffic.Orderly) {t : TaskId} (hcommit : c.commit t = .ok c') :
    ∃ new, Course calls c.traffic new c'.traffic ∧ ∀ d ∈ new, d.task = t ∧ c.Routed d := by
  unfold commit at hcommit
  split at hcommit
  · injection hcommit with hcommit
    exact ⟨[], .of_eq (congrArg traffic hcommit).symm, fun _ hd => nomatch hd⟩
  · rename_i x hx
    split at hcommit
    · injection hcommit with hcommit
      exact ⟨[], .of_eq (congrArg traffic hcommit).symm, fun _ hd => nomatch hd⟩
    · rename_i s hs
      refine ⟨_, course_enqueue h hcommit, ?_⟩
      intro d hd
      rw [List.mem_singleton.mp hd]
      exact ⟨rfl, x, s, hx, hs, rfl⟩

/-- A commit changes nothing that the routing of tasks goes by. -/
theorem routed_of_commit {t : TaskId} (hcommit : c.commit t = .ok c') {d : Delivery}
    (hd : c'.Routed d) : c.Routed d := by
  rcases hd with ⟨x, s, hx, hs, hunit⟩
  refine ⟨x, s, task?_congr (backdrop_commit hcommit) d.task ▸ hx, hs, ?_⟩
  have hrouter : c'.router = c.router := congrArg Setting.router (setting_commit hcommit)
  rw [hunit, route, route, hrouter]

theorem course_commitAll (ts : List TaskId) (h : c.traffic.Orderly) :
    ∃ new, Course calls c.traffic new (c.commitAll ts).1.traffic ∧
      ∀ d ∈ new, d.task ∈ ts ∧ c.Routed d := by
  induction ts generalizing c with
  | nil => exact ⟨[], .nil _, fun _ hd => nomatch hd⟩
  | cons t rest ih =>
    unfold commitAll
    split
    · exact ⟨[], .nil _, fun _ hd => nomatch hd⟩
    · rename_i c₁ hcommit
      obtain ⟨new, hfirst, hnew⟩ : ∃ new, Course calls c.traffic new c₁.traffic ∧
          ∀ d ∈ new, d.task = t ∧ c.Routed d := course_commit h hcommit
      have horderly : c₁.traffic.Orderly := by
        rcases accepts_commit h hcommit with ⟨_, haccepts, _⟩
        exact haccepts.orderly
      obtain ⟨new', hrest, hnew'⟩ := ih horderly
      refine ⟨new ++ new', hfirst.trans hrest, ?_⟩
      intro d hd
      rcases List.mem_append.mp hd with hd | hd
      · exact ⟨List.mem_cons.mpr (.inl (hnew d hd).1), (hnew d hd).2⟩
      · exact ⟨List.mem_cons_of_mem t (hnew' d hd).1, routed_of_commit hcommit (hnew' d hd).2⟩

/-! ## Units and engines that become known -/

theorem course_learnUnit (h : c.traffic.Orderly) (u : StorageUnit) :
    Course calls c.traffic [] (c.learnUnit u).traffic := by
  unfold learnUnit
  split
  · exact .nil _
  · rename_i hunknown
    simp only [Bool.or_eq_true, not_or, Bool.not_eq_true, Option.isSome_eq_false_iff,
      Option.isNone_iff_eq_none] at hunknown
    exact .single h (.learn ⟨u.id, u.engine, u.isDummy, Queue.empty, .seeking⟩ hunknown.2 rfl rfl
      hunknown.1)

theorem course_offered (h : c.traffic.Orderly) {e : StorageEngine} {answer : Except Fault Bool}
    (hoffered : c.Offered e answer c') : Course calls c.traffic [] c'.traffic := by
  cases hoffered with
  | known _ => exact .nil _
  | failed _ _ _ => exact .nil _
  | made hnone d hd =>
    refine .single h (.offer (c.freshSite e d) hnone rfl ?_)
    -- Of the factories only the one for stores makes a store, and that is empty.
    rintro st rfl
    unfold driverFor Factory.build at hd
    repeat' split at hd
    all_goals cases hd
    rfl

theorem course_offerEngine (h : c.traffic.Orderly) {e : StorageEngine} {isNew : Bool}
    (hoffer : c.offerEngine e = .ok (c', isNew)) : Course calls c.traffic [] c'.traffic :=
  course_offered h (offered_of_offerEngine hoffer)

theorem course_tryEngine (h : c.traffic.Orderly) (e : StorageEngine) :
    Course calls c.traffic [] (c.tryEngine e).traffic := by
  obtain ⟨_, hoffered⟩ := exists_offered_tryEngine c e
  exact course_offered h hoffered

theorem course_unitCalled (h : c.traffic.Orderly) (call : Call StorageUnit) :
    Course calls c.traffic [] (c.unitCalled call).traffic := by
  unfold unitCalled
  split
  · exact .nil _
  · split
    · split
      · exact course_learnUnit h _
      · exact .nil _
    · exact .nil _

theorem course_engineCalled (h : c.traffic.Orderly) (call : Call StorageEngine) :
    Course calls c.traffic [] (c.engineCalled call).traffic := by
  unfold engineCalled
  split
  · exact .nil _
  · split
    · split
      · exact course_tryEngine h _
      · exact .nil _
    · exact .nil _

/-- Many courses in a row are one. -/
theorem course_foldl {α : Type} {f : Cluster → α → Cluster}
    (hf : ∀ {c : Cluster} (a : α), c.traffic.Orderly → Course calls c.traffic [] (f c a).traffic)
    (horderly : ∀ {c : Cluster} (a : α), c.traffic.Orderly → Accepts c.traffic (f c a).traffic [])
    (as : List α) (h : c.traffic.Orderly) :
    Course calls c.traffic [] (as.foldl f c).traffic := by
  induction as generalizing c with
  | nil => exact .nil _
  | cons a rest ih => exact (hf a h).trans (ih (horderly a h).orderly)

theorem course_addEngine (h : c.traffic.Orderly) {e : StorageEngine}
    (hadd : c.addEngine e = .ok c') : Course calls c.traffic [] c'.traffic := by
  unfold addEngine at hadd
  cases hcatalog : c.catalog.addEngine e with
  | error _ => simp [hcatalog, Except.map] at hadd
  | ok r =>
    simp only [hcatalog, Except.map, Except.ok.injEq] at hadd
    exact hadd ▸ course_foldl (c := { c with catalog := r.1 })
      (fun call h => course_engineCalled h call) (fun call h => accepts_engineCalled h call) r.2 h

theorem course_addUnit (h : c.traffic.Orderly) {u : StorageUnit}
    (hadd : c.addUnit u = .ok c') : Course calls c.traffic [] c'.traffic := by
  unfold addUnit at hadd
  cases hcatalog : c.catalog.addUnit u with
  | error _ => simp [hcatalog, Except.map] at hadd
  | ok r =>
    simp only [hcatalog, Except.map, Except.ok.injEq] at hadd
    exact hadd ▸ course_foldl (c := { c with catalog := r.1 })
      (fun call h => course_unitCalled h call) (fun call h => accepts_unitCalled h call) r.2 h

/-! ## Drivers called past all queues, and gates -/

theorem course_callDriver [PatternLibrary] (hcalls : calls) (h : c.traffic.Orderly) {e : EngineId}
    {s : EngineSite} (hs : c.engine? e = some s) (t : TaskId) (task : Task) :
    Course calls c.traffic [] (c.callDriver s t task).1.traffic := by
  have hid : s.id = e := h.id_of_engine? hs
  subst hid
  unfold callDriver
  dsimp only
  split
  · exact .single h (.drive hcalls s _ hs)
  · exact .nil _

theorem admitHeld_map_core (c : Cluster) (type : String) (n : Nat) (runs : List Run) :
    (c.admitHeld type n runs).1.map Run.core = runs.map Run.core := by
  induction runs generalizing n with
  | nil => cases n <;> rfl
  | cons r rest ih =>
    cases n with
    | zero => rfl
    | succ n =>
      unfold admitHeld
      split
      · exact congrArg (r.core :: ·) (ih n)
      · exact congrArg (r.core :: ·) (ih (n + 1))

/-- A run that waits still has waited before. -/
theorem mem_of_mem_admitHeld (c : Cluster) (type : String) (n : Nat) (runs : List Run) {r : Run}
    (hr : r ∈ (c.admitHeld type n runs).1) (hheld : r.isHeld = true) : r ∈ runs := by
  induction runs generalizing n with
  | nil => cases n <;> exact hr
  | cons q rest ih =>
    cases n with
    | zero => exact hr
    | succ n =>
      unfold admitHeld at hr
      split at hr
      · rcases List.mem_cons.mp hr with rfl | hr
        · cases hheld
        · exact List.mem_cons_of_mem q (ih n hr)
      · rcases List.mem_cons.mp hr with rfl | hr
        · exact List.mem_cons_self
        · exact List.mem_cons_of_mem q (ih (n + 1) hr)

theorem course_openGate (h : c.traffic.Orderly) (type : String) (n : Nat) :
    Course calls c.traffic [] (c.openGate type n).traffic := by
  unfold openGate
  split
  · exact .nil _
  · exact .single h (.permit _ (admitHeld_map_core c type n c.running) fun r hr =>
      mem_of_mem_admitHeld c type n c.running hr)

/-! ## Requests -/

/-- Whether an event calls a driver. -/
def Event.callsDriver : Event → Bool
  | .asked (.callDriver _ _) => true
  | .moved (.start _) => true
  | _ => false

theorem course_orFault {r : Except Fault Cluster}
    (hr : ∀ c', r = .ok c' → Course calls c.traffic [] c'.traffic) :
    Course calls c.traffic [] (c.orFault r).1.traffic := by
  cases r with
  | ok c' => exact hr c' rfl
  | error f => exact .nil _

/-- A request brings in nothing but what it sends. -/
theorem course_obey [PatternLibrary] (h : c.traffic.Orderly) {r : Request}
    (hcalls : (Event.asked r).callsDriver = true → calls) :
    ∃ new, Course calls c.traffic new (c.obey r).1.traffic ∧ ∀ d ∈ new, c.Sends r d := by
  have hnothing : Course calls c.traffic [] (c.obey r).1.traffic →
      ∃ new, Course calls c.traffic new (c.obey r).1.traffic ∧ ∀ d ∈ new, c.Sends r d :=
    fun hcourse => ⟨[], hcourse, fun _ hd => nomatch hd⟩
  -- Only the three commits send deliveries; a course of all other requests brings in nothing.
  cases r with
  | addEngine e => exact hnothing (course_orFault fun _ => course_addEngine h)
  | addUnit u => exact hnothing (course_orFault fun _ => course_addUnit h)
  | notifyUnit before after =>
    exact hnothing (course_foldl (fun call h => course_unitCalled h call)
      (fun call h => accepts_unitCalled h call) _ h)
  | notifyEngine before after =>
    exact hnothing (course_foldl (fun call h => course_engineCalled h call)
      (fun call h => accepts_engineCalled h call) _ h)
  | offerEngine e =>
    refine hnothing ?_
    unfold obey
    dsimp only
    split
    · rename_i hoffer
      exact course_offerEngine h hoffer
    · exact .nil _
  | callDriver e t =>
    refine hnothing ?_
    unfold obey
    dsimp only
    split
    · rename_i s task hs ht
      have hcall := course_callDriver (hcalls rfl) h hs t task
      split <;> rename_i hpair <;> rw [hpair] at hcall <;> exact hcall
    · exact .nil _
  | commit t =>
    unfold obey
    dsimp only
    cases hcommit : c.commit t with
    | ok c' => exact course_commit h hcommit
    | error e => exact ⟨[], .nil _, fun _ hd => nomatch hd⟩
  | commitTo t u =>
    unfold obey
    dsimp only
    cases henqueue : c.enqueue u t with
    | ok c' =>
      refine ⟨_, course_enqueue h henqueue, ?_⟩
      intro d hd
      rw [List.mem_singleton.mp hd]
      exact ⟨rfl, rfl⟩
    | error e => exact ⟨[], .nil _, fun _ hd => nomatch hd⟩
  | commitAll ts =>
    obtain ⟨new, hcourse, hnew⟩ : ∃ new, Course calls c.traffic new (c.commitAll ts).1.traffic ∧
        ∀ d ∈ new, d.task ∈ ts ∧ c.Routed d := course_commitAll ts h
    unfold obey
    dsimp only
    split <;> rename_i hpair <;> rw [hpair] at hcourse <;> exact ⟨new, hcourse, hnew⟩
  | openGate type n => exact hnothing (course_openGate h type n)
  | shutdown => exact hnothing (.single h .close)
  | dropExecutor => exact hnothing (.single h .close)
  | addMemory ts => exact hnothing (.of_eq (traffic_foldl_addMemory ts c))
  | startMemory => exact hnothing (.of_eq rfl)
  | stopMemory => exact hnothing (.of_eq rfl)
  | takeNotices => exact hnothing (.of_eq rfl)
  | takeStats => exact hnothing (.of_eq rfl)
  | _ => exact hnothing (.of_eq (traffic_obey c rfl))

theorem course_handle [PatternLibrary] (h : c.traffic.Orderly) {r : Request}
    (hcalls : (Event.asked r).callsDriver = true → calls) :
    ∃ new, Course calls c.traffic new (c.handle r).1.traffic ∧ ∀ d ∈ new, c.Sends r d := by
  unfold handle
  split
  · exact course_obey h hcalls
  · exact ⟨[], .nil _, fun _ hd => nomatch hd⟩

/-! ## Loops -/

theorem course_serve (h : c.traffic.Orderly) {l : UnitLoop} (hl : c.unit? l.id = some l)
    (hready : (c.engine? l.engine).isSome) (hopen : c.isClosed = false) :
    Course calls c.traffic [] (c.serve l).traffic :=
  .single h (.turn l .serving hl (fun _ => hready) hopen)

theorem course_dispatch (h : c.traffic.Orderly) {l : UnitLoop} {d : Delivery}
    {rest : List Delivery} (hl : c.unit? l.id = some l) (hitems : l.queue.items = d :: rest)
    (hopen : c.isClosed = false) (hd : c.Dispatch l d rest c') :
    Course calls c.traffic [] c'.traffic := by
  -- A loop that finds its engine ready may do so before it takes the delivery.
  let m : UnitLoop := { l with phase := .serving }
  have horderly : (c.serve l).traffic.Orderly :=
    (accepts_serve h (mem_units_of_unit? hl) rfl).orderly
  have hm : (c.serve l).traffic.unit? m.id = some m := by
    have hmap := unit?_mapUnit c.traffic l.id (f := fun l => { l with phase := .serving })
      (fun _ => rfl) l.id
    rw [if_pos rfl, show c.traffic.unit? l.id = some l from hl] at hmap
    exact hmap
  have hswap : ((c.takeFirst l d rest).serve l).traffic =
      (c.serve l).traffic.mapUnit m.id fun l => { l with queue := ⟨rest⟩ } := by
    exact mapUnit_comm c.traffic l.id (f := fun l => { l with queue := ⟨rest⟩ })
      (g := fun l => { l with phase := .serving }) (fun _ => rfl) (fun _ => rfl) fun _ => rfl
  cases hd with
  | notReady hengine =>
    rw [traffic_reject]
    exact .single h (.refuse l d rest .notReady (.engineNotReady l.engine) hl hitems
      (.inl ⟨rfl, rfl⟩) hopen)
  | overloaded s hengine hfull =>
    rw [traffic_reject, hswap]
    exact (course_serve h hl (Option.isSome_of_eq_some hengine) hopen).trans (.single horderly
      (.refuse m d rest .overloaded (.tooManyTasks l.engine l.id s.waiting.size c.config.maxWaiting)
        hm hitems (.inr ⟨rfl, rfl⟩) hopen))
  | submitted s hengine hroom =>
    refine (course_serve h hl (Option.isSome_of_eq_some hengine) hopen).trans ?_
    change Course calls (c.serve l).traffic []
      (((c.takeFirst l d rest).serve l).traffic.putEngine { s with waiting := s.waiting.push d })
    rw [hswap]
    exact .single horderly (.submit m d rest s hm hitems hengine hroom hopen)

/-! ## Workers -/

theorem course_start (hcalls : calls) (h : c.traffic.Orderly) {s : EngineSite} {d : Delivery}
    {rest : List Delivery} (hs : c.Start s d rest c') : Course calls c.traffic [] c'.traffic := by
  rcases hs with ⟨hengine, _, hwaiting, _, driver, outcome, isHeld, htraffic⟩
  rw [htraffic]
  exact .single h (.start hcalls s d rest driver outcome isHeld hengine hwaiting)

/-- The copies of a task come in one after another, each for a known unit. -/
theorem course_foldl_sendCopy (h : c.traffic.Orderly) (task : Task) (fragment : Fragment)
    (us : List UnitId) :
    Course calls c.traffic (copyDeliveries c.accepted c.tasks.length (us.filter c.knows))
      (us.foldl (sendCopy task fragment) c).traffic := by
  induction us generalizing c with
  | nil => exact .nil _
  | cons u rest ih =>
    rw [List.foldl_cons]
    cases hknown : c.knows u with
    | false =>
      rw [sendCopy_of_not_knows hknown, List.filter_cons_of_neg (by simp [hknown])]
      exact ih h
    | true =>
      rcases sendCopy_of_knows hknown task fragment with ⟨htasks, haccepted, hunits⟩
      have horderly : (sendCopy task fragment c u).traffic.Orderly := by
        rcases accepts_sendCopy h task fragment u with ⟨_, haccepts, _⟩
        exact haccepts.orderly
      have hrest := ih horderly
      rw [knows_of_receive hunits, haccepted, htasks, List.length_append, List.length_singleton]
        at hrest
      rw [List.filter_cons_of_pos hknown]
      -- What is sent is a task that is made and then handed over.
      suffices hsent : Course calls c.traffic [⟨c.accepted, c.tasks.length, u⟩]
          (sendCopy task fragment c u).traffic from hsent.trans hrest
      unfold sendCopy
      dsimp only
      split
      · rename_i henqueue
        exact course_enqueue (c := (c.addTask (Task.replicaCopy task.operators fragment)).1) h
          henqueue
      · rename_i henqueue
        unfold enqueue at henqueue
        rcases Option.isSome_iff_exists.mp hknown with ⟨l, hl⟩
        rw [show (c.addTask _).1.unit? u = some l from hl] at henqueue
        cases henqueue

theorem course_broadcast (h : c.traffic.Orderly) {t : TaskId} {x : Task} {s : StorageShape}
    (hx : c.task? t = some x) (hs : x.storage? = some s) :
    Course calls c.traffic
      (copyDeliveries c.accepted c.tasks.length ((copyTargets s).filter c.knows))
      (c.broadcast t).traffic := by
  have hbroadcast : c.broadcast t = (copyTargets s).foldl (sendCopy x s.fragment) c := by
    simp only [broadcast, hx, hs]
  rw [hbroadcast]
  exact course_foldl_sendCopy h x s.fragment (copyTargets s)

/-- A worker ends its delivery, and then the copies of the task come in. -/
theorem course_completion [PatternLibrary] (h : c.Sound) {r : Run} {elapsed : Duration} {x : Task}
    {s : StorageShape} (hc : c.Completion r elapsed c') (hx : c.task? r.delivery.task = some x)
    (hs : x.storage? = some s) :
    Course calls c.traffic
      (copyDeliveries c.accepted c.tasks.length (c.copiedTo x s r.outcome)) c'.traffic := by
  have hmem : r ∈ c.running := List.mem_of_find?_eq_some hc.found
  have hfinish : Course calls c.traffic [] (c.close r elapsed).traffic := by
    rw [traffic_close]
    exact .single h.orderly (.finish r hmem fun q hq hid => h.run_eq hq hmem hid)
  have horderly := orderly_close h.orderly r elapsed
  rcases task?_close hx hs elapsed with ⟨y, s', hy, hs', _, hbroadcasts, _, htargets⟩
  have hunits : (c.close r elapsed).units = c.units :=
    congrArg Traffic.units (traffic_close c r elapsed)
  have haccepted : (c.close r elapsed).accepted = c.accepted :=
    congrArg Traffic.accepted (traffic_close c r elapsed)
  have hknows : (c.close r elapsed).knows = c.knows :=
    funext fun u => congrArg Option.isSome (unit?_congr hunits u)
  rw [hc.after, hy, Option.any_some, hbroadcasts, copiedTo]
  split
  · have hcopies : Course calls (c.close r elapsed).traffic _
        ((c.close r elapsed).broadcast r.delivery.task).traffic := course_broadcast horderly hy hs'
    rw [htargets, hknows, length_close, haccepted] at hcopies
    exact hfinish.trans hcopies
  · exact hfinish

/-! ## All events -/

/-- Nothing comes in by a move other than the end of a delivery. -/
theorem course_move? [PatternLibrary] (h : c.traffic.Orderly) {s : Step}
    (hs : ∀ id elapsed, s ≠ .complete id elapsed)
    (hcalls : (Event.moved s).callsDriver = true → calls) (hstep : c.step? s = some c') :
    Course calls c.traffic [] c'.traffic := by
  have hopen : s.isLoop = true → c.isClosed = false := fun hs => isClosed_of_isLoop hs hstep
  cases s with
  | resolve u =>
    obtain ⟨l, hl, _, ⟨_, hready⟩, rfl⟩ := serve_of_resolve? hstep
    exact course_serve h (unit?_of_mem h.unitsNodup hl) hready (hopen rfl)
  | giveUp u =>
    obtain ⟨l, hl, _, _, rfl⟩ := resign_of_giveUp? hstep
    exact .single h
      (.turn l .resigned (unit?_of_mem h.unitsNodup hl) (fun hphase => nomatch hphase) (hopen rfl))
  | dispatch u =>
    obtain ⟨l, d, rest, hl, _, _, hitems, hdispatch⟩ := dispatch_of_dispatch? hstep
    exact course_dispatch h (Cluster.id_of_unit? hl ▸ hl) hitems (hopen rfl) hdispatch
  | start e =>
    obtain ⟨s, d, rest, _, hstart⟩ := start_of_start? h hstep
    exact course_start (hcalls rfl) h hstart
  | complete id elapsed => exact absurd rfl (hs id elapsed)
  | admitMemory => exact .of_eq (traffic_admitMemory? hstep)
  | startMemory => exact .of_eq (traffic_startMemory? hstep)
  | runMemory t elapsed => exact .of_eq (traffic_runMemory? hstep)

/-- The task of a delivery that a worker ends. -/
theorem exists_storage_of_completion (h : c.Coherent) {r : Run} {elapsed : Duration}
    (hc : c.Completion r elapsed c') :
    r ∈ c.running ∧ ∃ x s, c.task? r.delivery.task = some x ∧ x.storage? = some s := by
  have hr := List.mem_of_find?_eq_some hc.found
  obtain ⟨x, hx, hstorage⟩ := h.storage r.delivery (mem_deliveries_of_running hr)
  obtain ⟨s, hs⟩ := Option.isSome_iff_exists.mp hstorage
  exact ⟨hr, x, s, hx, hs⟩

theorem course_step? [PatternLibrary] (h : c.Coherent) {s : Step}
    (hcalls : (Event.moved s).callsDriver = true → calls) (hstep : c.step? s = some c') :
    ∃ new, Course calls c.traffic new c'.traffic := by
  by_cases hs : ∃ id elapsed, s = .complete id elapsed
  · obtain ⟨id, elapsed, rfl⟩ := hs
    obtain ⟨r, _, hcompletion⟩ := completion_of_complete? hstep
    obtain ⟨_, x, s, hx, hs⟩ := exists_storage_of_completion h hcompletion
    exact ⟨_, course_completion h.sound hcompletion hx hs⟩
  · exact ⟨[], course_move? h.sound.orderly (fun id elapsed hsame => hs ⟨id, elapsed, hsame⟩) hcalls
      hstep⟩

/-- Every event is a course, on which drivers are called if the event calls one. -/
theorem course_of_after? [PatternLibrary] (h : c.Coherent) {e : Event}
    (hcalls : e.callsDriver = true → calls)
    (hafter : c.after? e = some c') : ∃ new, Course calls c.traffic new c'.traffic := by
  cases e with
  | asked r =>
    injection hafter with hafter
    subst hafter
    rcases course_handle h.sound.orderly hcalls with ⟨new, hcourse, _⟩
    exact ⟨new, hcourse⟩
  | moved s => exact course_step? h hcalls hafter

theorem course_of_run? [PatternLibrary] (h : c.Coherent) {events : List Event}
    (hrun : c.run? events = some c') : ∃ new, Course True c.traffic new c'.traffic := by
  refine h.run?_induction (P := fun c' => ∃ new, Course True c.traffic new c'.traffic)
    (fun hc hcourse hafter => ?_) ⟨[], .nil _⟩ hrun
  rcases hcourse with ⟨new, hcourse⟩
  rcases course_of_after? hc (fun _ => trivial) hafter with ⟨new', hnext⟩
  exact ⟨new ++ new', hcourse.trans hnext⟩

theorem finished_prefix_of_run? [PatternLibrary] (h : c.Coherent) {events : List Event}
    (hrun : c.run? events = some c') : c.finished <+: c'.finished := by
  rcases course_of_run? h hrun with ⟨new, hcourse⟩
  exact hcourse.finished_prefix

/-! ## Histories -/

theorem course_seedEngine (h : c.traffic.Orderly) (e : StorageEngine) :
    Course calls c.traffic [] (c.seedEngine e).traffic := by
  unfold seedEngine
  split
  · rename_i hadd
    exact course_addEngine h hadd
  · exact .nil _

/-- A new cluster comes from a blank one in the same small changes. -/
theorem course_build (s : Setup) : Course calls (blank s).traffic [] (build s).traffic := by
  have hseeded : Course calls (blank s).traffic []
      ((s.engines.map Prod.fst).foldl seedEngine (blank s)).traffic :=
    course_foldl (fun e h => course_seedEngine h e) (fun e h => accepts_seedEngine h e)
      (s.engines.map Prod.fst) (orderly_blank s)
  have horderly := accepts_foldl (f := seedEngine) (fun e h => accepts_seedEngine h e)
    (s.engines.map Prod.fst) (orderly_blank s)
  have hready : Course calls ((s.engines.map Prod.fst).foldl seedEngine (blank s)).traffic []
      (((s.engines.filter Prod.snd).map Prod.fst).foldl tryEngine
        ((s.engines.map Prod.fst).foldl seedEngine (blank s))).traffic :=
    course_foldl (fun e h => course_tryEngine h e) (fun e h => accepts_tryEngine h e)
      ((s.engines.filter Prod.snd).map Prod.fst) horderly.orderly
  have horderly' := accepts_foldl (f := tryEngine) (fun e h => accepts_tryEngine h e)
    ((s.engines.filter Prod.snd).map Prod.fst) horderly.orderly
  unfold build
  dsimp only
  generalize ((s.engines.filter Prod.snd).map Prod.fst).foldl tryEngine
    ((s.engines.map Prod.fst).foldl seedEngine (blank s)) = ready at hready horderly' ⊢
  refine (hseeded.trans hready).trans ?_
  exact course_foldl (f := learnUnit) (fun u h => course_learnUnit h u)
    (fun u h => accepts_learnUnit h u)
    ((ready.catalog.addHook executorHook).engineList.filterMap StorageEngine.dummyUnit?)
    (c := { ready with catalog := ready.catalog.addHook executorHook }) horderly'.orderly

/-- What every small change of the traffic keeps, a history keeps. -/
theorem traffic_induction [PatternLibrary] {P : Traffic → Prop}
    (hkeeps : ∀ {τ τ' new}, τ.Orderly → Shift True τ new τ' → P τ → P τ') {s : Setup}
    (hstart : P (blank s).traffic) {events : List Event}
    (hrun : (build s).run? events = some c) : P c.traffic := by
  rcases course_of_run? (coherent_build s) hrun with ⟨new, hcourse⟩
  exact hcourse.keeps hkeeps ((course_build s).keeps hkeeps hstart)

end Cluster
end SeriesExec
