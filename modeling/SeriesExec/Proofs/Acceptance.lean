import SeriesExec.Proofs.Transfer

/-!
# Acceptance — how deliveries come in

Deliveries come in when a task is committed, and when copies are made of a task that has succeeded.
What changes units, engines and drivers takes none.

Main statements: a task that is handed over becomes one new delivery of its unit
(`accepts_enqueue`), the copies of a task become new deliveries (`accepts_broadcast`), and hooks,
calls past all queues and gates take nothing (`accepts_unitCalled`, `accepts_engineCalled`,
`accepts_callDriver`, `accepts_openGate`).
-/

namespace SeriesExec

open Traffic

namespace Traffic

variable {τ τ' : Traffic}

/-- What leaves every place as it is takes nothing. -/
theorem Accepts.of_same (h : τ.Orderly) (hunits : τ'.units = τ.units)
    (hengines : τ'.engines = τ.engines) (hrunning : τ'.running = τ.running)
    (hfinished : τ'.finished = τ.finished) (haccepted : τ'.accepted = τ.accepted) :
    Accepts τ τ' [] where
  orderly := h.of_eq hunits hengines hrunning
  queued := by rw [Traffic.queued, Traffic.queued, hunits, List.append_nil]
  pooled := by rw [Traffic.pooled, Traffic.pooled, hengines]
  underway := congrArg (List.map Run.delivery) hrunning
  finished := hfinished
  numbered := rfl
  accepted := haccepted

theorem Accepts.of_eq (h : τ.Orderly) (heq : τ' = τ) : Accepts τ τ' [] := by
  subst heq
  exact Accepts.refl h

/-- A unit that changes without its queue takes nothing. -/
theorem Accepts.mapUnit (h : τ.Orderly) {l : UnitLoop} (hl : l ∈ τ.units)
    {f : UnitLoop → UnitLoop} (hid : ∀ m, (f m).id = m.id) (hengine : ∀ m, (f m).engine = m.engine)
    (hqueue : ∀ m, (f m).queue = m.queue) : Accepts τ (τ.mapUnit l.id f) [] where
  orderly := h.mapUnit hid hengine fun m hm hmid d hd =>
    (h.queuedAt m hm d (hqueue m ▸ hd)).trans hmid
  queued := by
    rcases exists_queued_perm h.unitsNodup hl with ⟨others, hbefore, hafter⟩
    rw [List.append_nil]
    exact (hqueue l ▸ hafter f).trans hbefore.symm
  pooled := List.Perm.refl _
  underway := rfl
  finished := rfl
  numbered := rfl
  accepted := rfl

/-- An engine whose driver changes takes nothing. -/
theorem Accepts.putEngine (h : τ.Orderly) {s s' : EngineSite} (hs : τ.engine? s.id = some s)
    (hid : s'.id = s.id) (hworkers : s'.workers = s.workers) (hwaiting : s'.waiting = s.waiting) :
    Accepts τ (τ.putEngine s') [] where
  orderly := by
    -- The new driver takes over the workers and what waits for them.
    have hmem : (s.id, s) ∈ τ.engines := KeyedList.mem_of_find? hs
    refine h.putEngine (hworkers ▸ h.staffed _ hmem) ?_ ?_
    · rw [hid, hworkers]
      exact h.busyLe _ hmem
    · rw [hid, hwaiting]
      exact h.pooledAt _ hmem
  queued := by rw [List.append_nil]; exact List.Perm.refl _
  pooled := by
    rcases exists_pooled_perm h hs with ⟨others, hbefore, hafter⟩
    exact (hwaiting ▸ hafter s' hid).trans hbefore.symm
  underway := rfl
  finished := rfl
  numbered := rfl
  accepted := rfl

end Traffic

namespace Cluster

variable {c c' : Cluster}

theorem mem_units_of_unit? {u : UnitId} {l : UnitLoop} (h : c.unit? u = some l) :
    l ∈ c.units :=
  List.mem_of_find?_eq_some h

theorem engineOf?_of_unit? {u : UnitId} {l : UnitLoop} (h : c.unit? u = some l) :
    c.traffic.engineOf? u = some l.engine := by
  have hfind : c.traffic.units.find? (fun l => l.id == u) = some l := h
  rw [engineOf?, hfind, Option.map_some]

/-! ## Accepting -/

/-- Only storage tasks are handed over. -/
def StorageOnly (c : Cluster) (ds : List Delivery) : Prop :=
  ∀ d ∈ ds, ∃ x, c.task? d.task = some x ∧ x.isStorage = true

theorem StorageOnly.append {ds ds' : List Delivery} (h : c.StorageOnly ds)
    (h' : c.StorageOnly ds') : c.StorageOnly (ds ++ ds') := fun d hd =>
  (List.mem_append.mp hd).elim (h d) (h' d)

theorem StorageOnly.of_task? {ds : List Delivery} (h : c.StorageOnly ds)
    (htask : ∀ t x, c.task? t = some x → c'.task? t = some x) : c'.StorageOnly ds := by
  intro d hd
  rcases h d hd with ⟨x, hx, hstorage⟩
  exact ⟨x, htask _ _ hx, hstorage⟩

theorem accepts_enqueue (h : c.traffic.Orderly) {u : UnitId} {t : TaskId}
    (henqueue : c.enqueue u t = .ok c') :
    Accepts c.traffic c'.traffic [⟨c.accepted, t, u⟩] := by
  unfold enqueue at henqueue
  split at henqueue
  · cases henqueue
  · rename_i l hl
    injection henqueue with henqueue
    subst henqueue
    have hid : l.id = u := id_of_unit? hl
    subst hid
    have hmem : l ∈ c.units := mem_units_of_unit? hl
    let d : Delivery := ⟨c.accepted, t, l.id⟩
    -- The delivery goes to the end of one queue; its unit is that of the queue, so order is kept.
    let push : UnitLoop → UnitLoop := fun m => { m with queue := m.queue.push d }
    have horderly : (c.traffic.mapUnit l.id push).Orderly := by
      refine h.mapUnit (fun _ => rfl) (fun _ => rfl) ?_
      intro m hm hmid e he
      rcases List.mem_append.mp he with he | he
      · exact (h.queuedAt m hm e he).trans hmid
      · rw [List.mem_singleton.mp he]
    rcases exists_queued_perm h.unitsNodup hmem with ⟨others, hbefore, hafter⟩
    exact {
      orderly := horderly.of_eq rfl rfl rfl
      queued := calc
        List.Perm (c.traffic.mapUnit l.id push).queued (l.queue.items ++ [d] ++ others) :=
          hafter push
        List.Perm _ (l.queue.items ++ others ++ [d]) := by
          rw [List.append_assoc, List.append_assoc]
          exact List.Perm.append_left _ List.perm_append_comm
        List.Perm _ (c.traffic.queued ++ [d]) := hbefore.symm.append_right [d]
      pooled := List.Perm.refl _
      underway := rfl
      finished := rfl
      numbered := rfl
      accepted := rfl }

theorem accepts_nothing {τ : Traffic} (h : Accepts τ c.traffic []) :
    ∃ new, Accepts τ c.traffic new ∧ c.StorageOnly new :=
  ⟨[], h, fun _ hd => nomatch hd⟩

/-- What comes in at first is still there, with its tasks, when more has come in. -/
theorem accepts_trans {c₁ : Cluster} (hkept : ∀ t x, c₁.task? t = some x → c'.task? t = some x)
    (hfirst : ∃ new, Accepts c.traffic c₁.traffic new ∧ c₁.StorageOnly new)
    (hrest : ∃ new, Accepts c₁.traffic c'.traffic new ∧ c'.StorageOnly new) :
    ∃ new, Accepts c.traffic c'.traffic new ∧ c'.StorageOnly new := by
  rcases hfirst with ⟨new, haccepts, hstorage⟩
  rcases hrest with ⟨new', haccepts', hstorage'⟩
  exact ⟨new ++ new', haccepts.trans haccepts', (hstorage.of_task? hkept).append hstorage'⟩

/-- A storage task that is sent to a unit comes to the queue of that unit. -/
theorem accepts_sent (h : c.traffic.Orderly) {u : UnitId} {t : TaskId}
    (hstorage : ∃ x, c.task? t = some x ∧ x.isStorage) (henqueue : c.enqueue u t = .ok c') :
    ∃ new, Accepts c.traffic c'.traffic new ∧ c'.StorageOnly new := by
  refine ⟨_, accepts_enqueue h henqueue, ?_⟩
  intro d hd
  rw [List.mem_singleton.mp hd]
  change ∃ x, c'.task? t = some x ∧ _
  rw [task?_congr (backdrop_enqueue henqueue)]
  exact hstorage

theorem accepts_commit (h : c.traffic.Orderly) {t : TaskId} (hcommit : c.commit t = .ok c') :
    ∃ new, Accepts c.traffic c'.traffic new ∧ c'.StorageOnly new := by
  unfold commit at hcommit
  split at hcommit
  · injection hcommit with hcommit
    exact accepts_nothing (.of_eq h (congrArg traffic hcommit).symm)
  · rename_i task htask
    split at hcommit
    · injection hcommit with hcommit
      exact accepts_nothing (.of_eq h (congrArg traffic hcommit).symm)
    · rename_i s hs
      exact accepts_sent h ⟨task, htask, by simp [Task.isStorage, hs]⟩ hcommit

theorem accepts_commitAll (ts : List TaskId) (h : c.traffic.Orderly) :
    ∃ new, Accepts c.traffic (c.commitAll ts).1.traffic new ∧
      (c.commitAll ts).1.StorageOnly new := by
  induction ts generalizing c with
  | nil => exact accepts_nothing (.refl h)
  | cons t rest ih =>
    unfold commitAll
    split
    · exact accepts_nothing (.refl h)
    · rename_i c₁ hcommit
      have hfirst := accepts_commit h hcommit
      have horderly : c₁.traffic.Orderly := by
        rcases hfirst with ⟨_, haccepts, _⟩
        exact haccepts.orderly
      refine accepts_trans ?_ hfirst (ih horderly)
      intro t x hx
      rw [task?_congr (backdrop_commitAll rest c₁)]
      exact hx

/-- A copy that is sent leaves all tasks that there are as they are. -/
theorem task?_sendCopy {t : TaskId} {x : Task} (hx : c.task? t = some x) (task : Task)
    (fragment : Fragment) (u : UnitId) : (sendCopy task fragment c u).task? t = some x := by
  have hold : (c.addTask (Task.replicaCopy task.operators fragment)).1.task? t = some x := by
    rw [task?_addTask, if_neg (Nat.ne_of_lt (lt_of_task?_eq_some hx)), hx]
  unfold sendCopy
  dsimp only
  split
  · rename_i c₁ henqueue
    rw [task?_congr (backdrop_enqueue henqueue), hold]
  · exact hx

theorem accepts_sendCopy (h : c.traffic.Orderly) (task : Task) (fragment : Fragment) (u : UnitId) :
    ∃ new, Accepts c.traffic (sendCopy task fragment c u).traffic new ∧
      (sendCopy task fragment c u).StorageOnly new := by
  unfold sendCopy
  dsimp only
  split
  · rename_i c₁ henqueue
    refine accepts_sent (c := (c.addTask _).1) h ?_ henqueue
    refine ⟨Task.replicaCopy task.operators fragment, ?_, rfl⟩
    rw [task?_addTask]
    exact if_pos rfl
  · exact accepts_nothing (.refl h)

theorem task?_foldl_sendCopy (task : Task) (fragment : Fragment) (us : List UnitId)
    {t : TaskId} {x : Task} (hx : c.task? t = some x) :
    (us.foldl (sendCopy task fragment) c).task? t = some x := by
  induction us generalizing c with
  | nil => exact hx
  | cons u rest ih => exact ih (task?_sendCopy hx task fragment u)

theorem accepts_foldl_sendCopy (h : c.traffic.Orderly) (task : Task) (fragment : Fragment)
    (us : List UnitId) : ∃ new,
      Accepts c.traffic (us.foldl (sendCopy task fragment) c).traffic new ∧
        (us.foldl (sendCopy task fragment) c).StorageOnly new := by
  induction us generalizing c with
  | nil => exact accepts_nothing (.refl h)
  | cons u rest ih =>
    have hfirst := accepts_sendCopy h task fragment u
    have horderly : (sendCopy task fragment c u).traffic.Orderly := by
      rcases hfirst with ⟨_, haccepts, _⟩
      exact haccepts.orderly
    exact accepts_trans (fun t x hx => task?_foldl_sendCopy task fragment rest hx) hfirst
      (ih horderly)

theorem accepts_broadcast (h : c.traffic.Orderly) (t : TaskId) :
    ∃ new, Accepts c.traffic (c.broadcast t).traffic new ∧ (c.broadcast t).StorageOnly new := by
  rcases broadcast_eq c t with hsame | ⟨task, fragment, us, hsent⟩
  · rw [hsame]
    exact accepts_nothing (.refl h)
  · rw [hsent]
    exact accepts_foldl_sendCopy h task fragment us

/-! ## Units and engines that become known -/

theorem accepts_learnUnit (h : c.traffic.Orderly) (u : StorageUnit) :
    Accepts c.traffic (c.learnUnit u).traffic [] := by
  unfold learnUnit
  split
  · exact .refl h
  · rename_i hunknown
    simp only [Bool.or_eq_true, not_or, Bool.not_eq_true, Option.isSome_eq_false_iff,
      Option.isNone_iff_eq_none] at hunknown
    -- The loop of a unit is set up once: a unit that is known is not learnt again.
    have hnew : u.id ∉ c.traffic.units.map UnitLoop.id := by
      intro hmem
      rcases List.mem_map.mp hmem with ⟨l, hl, hid⟩
      have hnone := List.find?_eq_none.mp hunknown.2 l hl
      exact hnone (by simpa using hid)
    let l : UnitLoop := ⟨u.id, u.engine, u.isDummy, Queue.empty, .seeking⟩
    -- The queue of the new unit is empty.
    have hempty : (c.units ++ [l]).flatMap (fun l => l.queue.items) = c.traffic.queued ++ [] :=
      List.flatMap_append
    exact {
      orderly := h.addUnit (l := l) hnew rfl
      queued := List.Perm.of_eq hempty
      pooled := List.Perm.refl _
      underway := rfl
      finished := rfl
      numbered := rfl
      accepted := rfl }

theorem accepts_offered (h : c.traffic.Orderly) {e : StorageEngine} {answer : Except Fault Bool}
    (hoffered : c.Offered e answer c') : Accepts c.traffic c'.traffic [] := by
  cases hoffered with
  | known _ => exact .refl h
  | failed _ _ _ => exact .refl h
  | made hnone d _ =>
    have hnone' : c.traffic.engine? (c.freshSite e d).id = none := hnone
    -- An engine that is not ready has no worker, so none of those that run is its own.
    have hidle : c.traffic.busy (c.freshSite e d).id = 0 := by
      refine List.countP_eq_zero.mpr ?_
      intro r hr hengine
      rcases h.runningEngine r hr with ⟨s', hs'⟩
      have hfind := KeyedList.find?_of_mem h.enginesSorted hs'
      rw [eq_of_beq hengine] at hfind
      exact absurd (hfind.symm.trans hnone') (Option.some_ne_none s')
    exact {
      -- A pool has one worker at least, whatever the settings say.
      orderly := h.putEngine (s := c.freshSite e d) (Nat.le_max_right _ _)
        (hidle ▸ Nat.zero_le _) (fun _ hd => nomatch hd)
      queued := by rw [List.append_nil]; exact List.Perm.refl _
      pooled := pooled_putEngine_new hnone'
      underway := rfl
      finished := rfl
      numbered := rfl
      accepted := rfl }

theorem accepts_offerEngine (h : c.traffic.Orderly) {e : StorageEngine} {isNew : Bool}
    (hoffer : c.offerEngine e = .ok (c', isNew)) : Accepts c.traffic c'.traffic [] :=
  accepts_offered h (offered_of_offerEngine hoffer)

theorem accepts_tryEngine (h : c.traffic.Orderly) (e : StorageEngine) :
    Accepts c.traffic (c.tryEngine e).traffic [] := by
  obtain ⟨_, hoffered⟩ := exists_offered_tryEngine c e
  exact accepts_offered h hoffered

theorem accepts_unitCalled (h : c.traffic.Orderly) (call : Call StorageUnit) :
    Accepts c.traffic (c.unitCalled call).traffic [] := by
  unfold unitCalled
  split
  · exact .refl h
  · split
    · split
      · exact accepts_learnUnit h _
      · exact .refl h
    · exact .refl h

theorem accepts_engineCalled (h : c.traffic.Orderly) (call : Call StorageEngine) :
    Accepts c.traffic (c.engineCalled call).traffic [] := by
  unfold engineCalled
  split
  · exact .refl h
  · split
    · split
      · exact accepts_tryEngine h _
      · exact .refl h
    · exact .refl h

/-- What each of many steps keeps without taking a delivery, all of them keep. -/
theorem accepts_foldl {α : Type} {f : Cluster → α → Cluster}
    (hf : ∀ {c : Cluster} (a : α), c.traffic.Orderly → Accepts c.traffic (f c a).traffic [])
    (as : List α) (h : c.traffic.Orderly) : Accepts c.traffic (as.foldl f c).traffic [] := by
  induction as generalizing c with
  | nil => exact .refl h
  | cons a rest ih => exact (hf a h).trans (ih (hf a h).orderly)

theorem accepts_addEngine (h : c.traffic.Orderly) {e : StorageEngine}
    (hadd : c.addEngine e = .ok c') : Accepts c.traffic c'.traffic [] := by
  unfold addEngine at hadd
  cases hcatalog : c.catalog.addEngine e with
  | error _ => simp [hcatalog, Except.map] at hadd
  | ok r =>
    simp only [hcatalog, Except.map, Except.ok.injEq] at hadd
    exact hadd ▸ accepts_foldl (c := { c with catalog := r.1 })
      (fun call h => accepts_engineCalled h call) r.2 h

theorem accepts_addUnit (h : c.traffic.Orderly) {u : StorageUnit}
    (hadd : c.addUnit u = .ok c') : Accepts c.traffic c'.traffic [] := by
  unfold addUnit at hadd
  cases hcatalog : c.catalog.addUnit u with
  | error _ => simp [hcatalog, Except.map] at hadd
  | ok r =>
    simp only [hcatalog, Except.map, Except.ok.injEq] at hadd
    exact hadd ▸ accepts_foldl (c := { c with catalog := r.1 })
      (fun call h => accepts_unitCalled h call) r.2 h

/-! ## Drivers called past all queues, and gates -/

theorem accepts_callDriver [PatternLibrary] (h : c.traffic.Orderly) {e : EngineId} {s : EngineSite}
    (hs : c.engine? e = some s) (t : TaskId) (task : Task) :
    Accepts c.traffic (c.callDriver s t task).1.traffic [] := by
  have hid : s.id = e := h.id_of_engine? hs
  subst hid
  unfold callDriver
  dsimp only
  split
  · exact Accepts.putEngine h hs rfl rfl rfl
  · exact .refl h

theorem admitHeld_map_delivery (c : Cluster) (type : String) (n : Nat) (runs : List Run) :
    (c.admitHeld type n runs).1.map (fun r => (r.delivery, r.engine)) =
      runs.map fun r => (r.delivery, r.engine) := by
  induction runs generalizing n with
  | nil => cases n <;> rfl
  | cons r rest ih =>
    cases n with
    | zero => rfl
    | succ n =>
      -- A run that waits uses up one of the permits, any other run is passed by.
      unfold admitHeld
      split
      · exact congrArg ((r.delivery, r.engine) :: ·) (ih n)
      · exact congrArg ((r.delivery, r.engine) :: ·) (ih (n + 1))

/-- Workers that change in nothing but whether they wait take nothing. -/
theorem Accepts.setRunning {τ : Traffic} (h : τ.Orderly) {running : List Run}
    (hsame : running.map (fun r => (r.delivery, r.engine)) =
      τ.running.map fun r => (r.delivery, r.engine)) :
    Accepts τ { τ with running := running } [] where
  orderly := by
    refine h.setRunning ?_ ?_
    -- A run has the delivery and the engine of a run that was there.
    · intro r hr
      have hmem := List.mem_map_of_mem (f := fun r : Run => (r.delivery, r.engine)) hr
      rw [hsame] at hmem
      rcases List.mem_map.mp hmem with ⟨r', hr', heq⟩
      rcases Prod.mk.inj heq with ⟨hdelivery, hengine⟩
      exact ⟨hdelivery ▸ hengine ▸ h.runningAt r' hr', hengine ▸ h.runningEngine r' hr'⟩
    -- How busy an engine is can be read from deliveries and engines alone.
    · intro e he
      have hcount : ∀ rs : List Run, (rs.countP fun r => r.engine == e.1) =
          (rs.map fun r => (r.delivery, r.engine)).countP fun p => p.2 == e.1 := by
        intro rs
        rw [List.countP_map]
        rfl
      rw [hcount, hsame, ← hcount]
      exact h.busyLe e he
  queued := by rw [List.append_nil]; exact List.Perm.refl _
  pooled := List.Perm.refl _
  underway := by
    have hfst := congrArg (List.map Prod.fst) hsame
    rw [List.map_map, List.map_map] at hfst
    exact hfst
  finished := rfl
  numbered := rfl
  accepted := rfl

theorem accepts_openGate (h : c.traffic.Orderly) (type : String) (n : Nat) :
    Accepts c.traffic (c.openGate type n).traffic [] := by
  unfold openGate
  split
  · exact .refl h
  · exact Accepts.setRunning h (admitHeld_map_delivery c type n c.running)

end Cluster
end SeriesExec
