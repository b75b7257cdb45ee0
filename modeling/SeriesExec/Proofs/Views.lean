import SeriesExec.Cluster.History

/-!
# Views — what a function leaves alone

The parts of a cluster change for different reasons.  This file defines:

* `Traffic` — where the deliveries are, and what loops and workers go by;
* `Backdrop` — the tasks, where the memory tasks are, and whether the loops are off;
* `Signposts` — who chooses the units for tasks, and which engines are registered;
* `Cluster.driverFor` — the driver that an engine would get;
* `Cluster.Offered` — how an offer ends, and the cluster then.

Main statements: a single task, unit or engine after a change; every offer ends in one of three ways
(`exists_offered`); and whatever works on tasks leaves the traffic alone, while whatever moves
deliveries leaves the backdrop alone.
-/

namespace SeriesExec

/-- Where the deliveries of a cluster are, and what its loops and workers go by. -/
structure Traffic where
  units : List UnitLoop
  engines : List (EngineId × EngineSite)
  running : List Run
  finished : List Ending
  accepted : Nat
  config : ExecutorConfig
  isClosed : Bool
  memoryWorkers : Nat

/-- What stays as it is while deliveries move: the tasks of a cluster, where its memory tasks are,
and whether the loops of its units are off. -/
structure Backdrop where
  tasks : List Task
  memory : MemoryStage
  isClosed : Bool

/-- Who chooses the units for tasks, and which engines are registered. -/
structure Signposts where
  router : Router
  registered : List (EngineId × StorageEngine)

namespace Cluster

def traffic (c : Cluster) : Traffic :=
  ⟨c.units, c.engines, c.running, c.finished, c.accepted, c.config, c.isClosed, c.memory.workers⟩

def backdrop (c : Cluster) : Backdrop :=
  ⟨c.tasks, c.memory, c.isClosed⟩

def signposts (c : Cluster) : Signposts :=
  ⟨c.router, c.catalog.engines⟩

/-! ## Single tasks, units and engines -/

theorem task?_modifyTask (c : Cluster) (t i : TaskId) (f : Task → Task) :
    (c.modifyTask t f).task? i = if i = t then (c.task? i).map f else c.task? i := by
  by_cases h : i = t
  · simp [task?, modifyTask, h]
  · simp [task?, modifyTask, h, Ne.symm h]

theorem task?_addTask (c : Cluster) (x : Task) (i : TaskId) :
    (c.addTask x).1.task? i = if i = c.tasks.length then some x else c.task? i := by
  by_cases h : i = c.tasks.length
  · simp [task?, addTask, h]
  -- A number below the new one is looked up among the old tasks, one above it is nobody's.
  · rcases Nat.lt_or_gt_of_ne h with hlt | hgt
    · simp [task?, addTask, h, List.getElem?_append_left hlt]
    · simp [task?, addTask, h, Nat.le_of_lt hgt, List.getElem?_append_right (Nat.le_of_lt hgt)]
      omega

theorem lt_of_task?_eq_some {c : Cluster} {t : TaskId} {x : Task} (h : c.task? t = some x) :
    t < c.tasks.length :=
  (List.getElem?_eq_some_iff.mp h).1

theorem id_of_unit? {c : Cluster} {u : UnitId} {l : UnitLoop} (h : c.unit? u = some l) :
    l.id = u := by
  have hid := List.find?_some h
  exact eq_of_beq hid

theorem engine?_putEngine (c : Cluster) (s : EngineSite) (e : EngineId) :
    (c.putEngine s).engine? e = if e = s.id then some s else c.engine? e :=
  KeyedList.find?_insert s.id e s c.engines

/-- What it takes to make a follower, and the cluster after that. -/
theorem made_of_follow {c c' : Cluster} {operators : List Operator} {parents : List TaskId}
    {f : TaskId} (h : c.follow operators parents = .ok (c', f)) :
    c.followFault [] parents = none ∧ f = c.tasks.length ∧
      c' = parents.foldl (fun c p => c.modifyTask p fun t => t.setFollower f)
        (c.addTask (Task.newFollower operators parents)).1 := by
  unfold follow at h
  split at h
  · cases h
  · rename_i hfault
    injection h with h
    rcases Prod.mk.inj h with ⟨rfl, rfl⟩
    exact ⟨hfault, rfl, rfl⟩

/-! ## Offers -/

section Offers

variable {c c' : Cluster} {e : StorageEngine}

/-- The factory for a type of engine. -/
def factory? (c : Cluster) (type : String) : Option Factory :=
  KeyedList.find? type c.factories

/-- The driver that the factory for its type makes for an engine, or why there is none. -/
def driverFor (c : Cluster) (e : StorageEngine) : Except Fault Driver :=
  match c.factory? e.type with
  | none => .error (.noDriver e.id e.type)
  | some f => f.build e

/-- An engine that has just become ready. -/
def freshSite (c : Cluster) (e : StorageEngine) (d : Driver) : EngineSite :=
  ⟨e.id, d, max c.config.engineWorkers 1, Queue.empty⟩

/-- How an offer ends, and the cluster then: only an engine that was not ready and that a driver
can be made for becomes ready, and nothing else changes. -/
inductive Offered (c : Cluster) (e : StorageEngine) : Except Fault Bool → Cluster → Prop where
  | known (hready : (c.engine? e.id).isSome) : Offered c e (.ok false) c
  | failed (hnone : c.engine? e.id = none) (f : Fault) (hf : c.driverFor e = .error f) :
      Offered c e (.error f) c
  | made (hnone : c.engine? e.id = none) (d : Driver) (hd : c.driverFor e = .ok d) :
      Offered c e (.ok true) (c.putEngine (c.freshSite e d))

theorem offerEngine_of_ready (h : (c.engine? e.id).isSome) : c.offerEngine e = .ok (c, false) := by
  rw [engine?, KeyedList.isSome_find?] at h
  rw [offerEngine, if_pos h]

theorem offerEngine_of_none (h : c.engine? e.id = none) :
    c.offerEngine e = (c.driverFor e).map fun d => (c.putEngine (c.freshSite e d), true) := by
  have habsent : ¬KeyedList.contains e.id c.engines = true := by
    rw [← KeyedList.isSome_find?, Bool.not_eq_true, Option.isSome_eq_false_iff,
      Option.isNone_iff_eq_none]
    exact h
  rw [offerEngine, if_neg habsent, driverFor, factory?]
  cases KeyedList.find? e.type c.factories <;> rfl

theorem exists_offered (c : Cluster) (e : StorageEngine) :
    ∃ answer c', c.Offered e answer c' ∧ c.offerEngine e = answer.map (Prod.mk c') := by
  cases hengine : c.engine? e.id with
  | some s =>
    have hready : (c.engine? e.id).isSome := Option.isSome_of_eq_some hengine
    exact ⟨_, _, .known hready, offerEngine_of_ready hready⟩
  | none =>
    have hoffer := offerEngine_of_none hengine
    cases hdriver : c.driverFor e with
    | error f => exact ⟨_, _, .failed hengine f hdriver, by rw [hoffer, hdriver]; rfl⟩
    | ok d => exact ⟨_, _, .made hengine d hdriver, by rw [hoffer, hdriver]; rfl⟩

theorem offered_of_offerEngine {isNew : Bool} (h : c.offerEngine e = .ok (c', isNew)) :
    c.Offered e (.ok isNew) c' := by
  obtain ⟨answer, c'', hoffered, hoffer⟩ := exists_offered c e
  rw [hoffer] at h
  cases answer with
  | error f => cases h
  | ok isNew' =>
    obtain ⟨rfl, rfl⟩ := Prod.mk.inj (Except.ok.inj h)
    exact hoffered

/-- An engine that is tried leaves the cluster as its offer does. -/
theorem exists_offered_tryEngine (c : Cluster) (e : StorageEngine) :
    ∃ answer, c.Offered e answer (c.tryEngine e) := by
  obtain ⟨answer, c', hoffered, hoffer⟩ := exists_offered c e
  refine ⟨answer, ?_⟩
  rw [tryEngine, hoffer]
  cases hoffered with
  | known hready => exact .known hready
  | failed hnone f hf => exact .failed hnone f hf
  | made hnone d hd => exact .made hnone d hd

theorem Offered.keeps {β : Type} {g : Cluster → β} (hput : ∀ c s, g (c.putEngine s) = g c)
    {answer : Except Fault Bool} (h : c.Offered e answer c') : g c' = g c := by
  cases h with
  | known _ => rfl
  | failed _ _ _ => rfl
  | made _ d _ => exact hput c (c.freshSite e d)

theorem tryEngine_keeps {β : Type} {g : Cluster → β} (hput : ∀ c s, g (c.putEngine s) = g c)
    (c : Cluster) (e : StorageEngine) : g (c.tryEngine e) = g c := by
  obtain ⟨_, hoffered⟩ := exists_offered_tryEngine c e
  exact hoffered.keeps hput

end Offers

/-! ## What a function keeps because its parts do -/

section Keeps

variable {α β : Type} {g : Cluster → β}

theorem foldl_keeps {σ : Type} {g : σ → β} {f : σ → α → σ} (hf : ∀ s a, g (f s a) = g s)
    (as : List α) (s : σ) : g (as.foldl f s) = g s := by
  induction as generalizing s with
  | nil => rfl
  | cons a rest ih => exact (ih (f s a)).trans (hf s a)

theorem release_keeps (hcount : ∀ c f, g (c.modifyTask f Task.countParent) = g c) (c : Cluster)
    (t : TaskId) : g (c.release t).1 = g c := by
  unfold release
  split
  · rfl
  · exact hcount c _

theorem settleTask_keeps (hresult : ∀ c t r, g (c.modifyTask t fun x => x.setResult r) = g c)
    (hcount : ∀ c f, g (c.modifyTask f Task.countParent) = g c)
    (hadd : ∀ c f, g (c.addMemory f) = g c) (c : Cluster) (t : TaskId) (r : TaskResult) :
    g (c.settleTask t r) = g c := by
  have hrelease := release_keeps hcount (c.modifyTask t fun x => x.setResult r) t
  unfold settleTask
  dsimp only
  split
  · split <;> rename_i hpair <;> rw [hpair] at hrelease
    -- The follower is released, and comes to the memory stage after that.
    · exact (hadd _ _).trans (hrelease.trans (hresult c t r))
    · exact hrelease.trans (hresult c t r)
  · exact hresult c t r

theorem follow_keeps
    (hmake : ∀ c operators parents, g (c.addTask (Task.newFollower operators parents)).1 = g c)
    (hlink : ∀ c p f, g (c.modifyTask p fun x => x.setFollower f) = g c) {c c' : Cluster}
    {operators : List Operator} {parents : List TaskId} {f : TaskId}
    (h : c.follow operators parents = .ok (c', f)) : g c' = g c := by
  rcases made_of_follow h with ⟨_, _, rfl⟩
  exact (foldl_keeps (fun c p => hlink c p f) parents _).trans (hmake c operators parents)

theorem sendCopy_keeps (hmake : ∀ c operators fragment,
      g (c.addTask (Task.replicaCopy operators fragment)).1 = g c)
    (henqueue : ∀ {c c' : Cluster} {u t}, c.enqueue u t = .ok c' → g c' = g c) (task : Task)
    (fragment : Fragment) (c : Cluster) (u : UnitId) : g (sendCopy task fragment c u) = g c := by
  unfold sendCopy
  dsimp only
  split
  · rename_i hsent
    exact (henqueue hsent).trans (hmake c _ _)
  · rfl

/-- A broadcast sends copies one after another, if it does anything. -/
theorem broadcast_eq (c : Cluster) (t : TaskId) : c.broadcast t = c ∨
    ∃ task fragment, ∃ us : List UnitId, c.broadcast t = us.foldl (sendCopy task fragment) c := by
  unfold broadcast
  split
  · exact .inl rfl
  · split
    · exact .inl rfl
    · exact .inr ⟨_, _, _, rfl⟩

theorem broadcast_keeps
    (hsend : ∀ task fragment c u, g (sendCopy task fragment c u) = g c) (c : Cluster)
    (t : TaskId) : g (c.broadcast t) = g c := by
  rcases broadcast_eq c t with h | ⟨task, fragment, us, h⟩
  · rw [h]
  · rw [h]
    exact foldl_keeps (hsend task fragment) us c

theorem runMemory_keeps [PatternLibrary]
    (hforget : ∀ c t, g (c.modifyTask t Task.forgetParents) = g c)
    (hend : ∀ c t d r, g (c.modifyTask t fun x => (x.setSpan d).setResult r) = g c)
    (hcount : ∀ c f, g (c.modifyTask f Task.countParent) = g c)
    (hrunning : ∀ c ts, g { c with memory := { c.memory with running := ts } } = g c)
    {c c' : Cluster} {t : TaskId} {elapsed : Duration} (h : c.runMemory? t elapsed = some c') :
    g c' = g c := by
  have hexecute : g (c.executeMemory t).1 = g c := by
    unfold executeMemory
    split
    · rfl
    · exact hforget c t
  unfold runMemory? at h
  split at h
  · rcases Option.some.inj h with rfl
    -- From the last step back to the first: the workers, the follower, the result, the parents.
    exact (hrunning _ _).trans
      ((release_keeps hcount _ t).trans ((hend _ t elapsed _).trans hexecute))
  · cases h

theorem commit_keeps
    (henqueue : ∀ {c c' : Cluster} {u t}, c.enqueue u t = .ok c' → g c' = g c) {c c' : Cluster}
    {t : TaskId} (h : c.commit t = .ok c') : g c' = g c := by
  unfold commit at h
  repeat' split at h
  all_goals first
    | exact henqueue h
    | exact congrArg g (Except.ok.inj h).symm

theorem commitAll_keeps
    (henqueue : ∀ {c c' : Cluster} {u t}, c.enqueue u t = .ok c' → g c' = g c) (ts : List TaskId)
    (c : Cluster) : g (c.commitAll ts).1 = g c := by
  induction ts generalizing c with
  | nil => rfl
  | cons t rest ih =>
    unfold commitAll
    split
    · rfl
    · rename_i c₁ hcommit
      exact (ih c₁).trans (commit_keeps henqueue hcommit)

end Keeps

/-! ## Working on tasks -/

@[simp]
theorem traffic_modifyTask (c : Cluster) (t : TaskId) (f : Task → Task) :
    (c.modifyTask t f).traffic = c.traffic := rfl

@[simp]
theorem traffic_addMemory (c : Cluster) (t : TaskId) : (c.addMemory t).traffic = c.traffic := rfl

@[simp]
theorem traffic_foldl_addMemory (ts : List TaskId) (c : Cluster) :
    (ts.foldl addMemory c).traffic = c.traffic :=
  foldl_keeps traffic_addMemory ts c

@[simp]
theorem traffic_settleTask (c : Cluster) (t : TaskId) (r : TaskResult) :
    (c.settleTask t r).traffic = c.traffic :=
  settleTask_keeps (fun c t _ => traffic_modifyTask c t _) (fun c f => traffic_modifyTask c f _)
    traffic_addMemory c t r

@[simp]
theorem traffic_observe (c : Cluster) (t : TaskId) (span : Duration) :
    (c.observe t span).traffic = c.traffic := by
  unfold observe
  repeat' split
  all_goals rfl

@[simp]
theorem backdrop_observe (c : Cluster) (t : TaskId) (span : Duration) :
    (c.observe t span).backdrop = c.backdrop := by
  unfold observe
  repeat' split
  all_goals rfl

theorem traffic_runMemory? [PatternLibrary] {c c' : Cluster} {t : TaskId} {elapsed : Duration}
    (h : c.runMemory? t elapsed = some c') : c'.traffic = c.traffic :=
  runMemory_keeps (fun c t => traffic_modifyTask c t _) (fun c t _ _ => traffic_modifyTask c t _)
    (fun c f => traffic_modifyTask c f _) (fun _ _ => rfl) h

/-! ## Moving deliveries -/

theorem backdrop_enqueue {c c' : Cluster} {u : UnitId} {t : TaskId}
    (h : c.enqueue u t = .ok c') : c'.backdrop = c.backdrop := by
  unfold enqueue at h
  split at h
  · cases h
  · injection h with h
    rw [← h]
    rfl

theorem backdrop_commit {c c' : Cluster} {t : TaskId} (h : c.commit t = .ok c') :
    c'.backdrop = c.backdrop :=
  commit_keeps backdrop_enqueue h

@[simp]
theorem backdrop_commitAll (ts : List TaskId) (c : Cluster) :
    (c.commitAll ts).1.backdrop = c.backdrop :=
  commitAll_keeps backdrop_enqueue ts c

@[simp]
theorem backdrop_putEngine (c : Cluster) (s : EngineSite) :
    (c.putEngine s).backdrop = c.backdrop := rfl

@[simp]
theorem backdrop_call [PatternLibrary] (c : Cluster) (s : EngineSite) (d : Delivery) (task : Task) :
    (c.call s d task).backdrop = c.backdrop := by
  unfold call
  dsimp only
  split <;> rfl

@[simp]
theorem backdrop_callDriver [PatternLibrary] (c : Cluster) (s : EngineSite) (t : TaskId)
    (task : Task) : (c.callDriver s t task).1.backdrop = c.backdrop := by
  unfold callDriver
  dsimp only
  split <;> rfl

@[simp]
theorem backdrop_openGate (c : Cluster) (type : String) (n : Nat) :
    (c.openGate type n).backdrop = c.backdrop := by
  unfold openGate
  split <;> rfl

@[simp]
theorem backdrop_learnUnit (c : Cluster) (u : StorageUnit) :
    (c.learnUnit u).backdrop = c.backdrop := by
  unfold learnUnit
  split <;> rfl

theorem backdrop_offerEngine {c c' : Cluster} {e : StorageEngine} {isNew : Bool}
    (h : c.offerEngine e = .ok (c', isNew)) : c'.backdrop = c.backdrop :=
  (offered_of_offerEngine h).keeps backdrop_putEngine

@[simp]
theorem backdrop_tryEngine (c : Cluster) (e : StorageEngine) :
    (c.tryEngine e).backdrop = c.backdrop :=
  tryEngine_keeps backdrop_putEngine c e

@[simp]
theorem backdrop_unitCalled (c : Cluster) (call : Call StorageUnit) :
    (c.unitCalled call).backdrop = c.backdrop := by
  unfold unitCalled
  repeat' split
  all_goals first | rfl | exact backdrop_learnUnit c _

@[simp]
theorem backdrop_engineCalled (c : Cluster) (call : Call StorageEngine) :
    (c.engineCalled call).backdrop = c.backdrop := by
  unfold engineCalled
  repeat' split
  all_goals first | rfl | exact backdrop_tryEngine c _

theorem backdrop_addEngine {c c' : Cluster} {e : StorageEngine} (h : c.addEngine e = .ok c') :
    c'.backdrop = c.backdrop := by
  unfold addEngine at h
  cases hcatalog : c.catalog.addEngine e with
  | error _ => simp [hcatalog, Except.map] at h
  | ok r =>
    simp only [hcatalog, Except.map, Except.ok.injEq] at h
    rw [← h]
    exact foldl_keeps backdrop_engineCalled r.2 _

theorem backdrop_addUnit {c c' : Cluster} {u : StorageUnit} (h : c.addUnit u = .ok c') :
    c'.backdrop = c.backdrop := by
  unfold addUnit at h
  cases hcatalog : c.catalog.addUnit u with
  | error _ => simp [hcatalog, Except.map] at h
  | ok r =>
    simp only [hcatalog, Except.map, Except.ok.injEq] at h
    rw [← h]
    exact foldl_keeps backdrop_unitCalled r.2 _

theorem backdrop_orFault {c : Cluster} {r : Except Fault Cluster}
    (hr : ∀ c', r = .ok c' → c'.backdrop = c.backdrop) :
    (c.orFault r).1.backdrop = c.backdrop := by
  cases r with
  | ok c' => exact hr c' rfl
  | error f => rfl

theorem backdrop_orRefused {c : Cluster} {r : Except Error Cluster}
    (hr : ∀ c', r = .ok c' → c'.backdrop = c.backdrop) :
    (c.orRefused r).1.backdrop = c.backdrop := by
  cases r with
  | ok c' => exact hr c' rfl
  | error f => rfl

/-- A new cluster has no tasks. -/
theorem backdrop_launch (s : Setup) (factories : List (String × Factory))
    (given : List StorageEngine) :
    (launch s factories given).backdrop = (blank s).backdrop := by
  have hseed : ∀ (c : Cluster) (e : StorageEngine), (c.seedEngine e).backdrop = c.backdrop := by
    intro c e
    unfold seedEngine
    split
    · rename_i hadd
      exact backdrop_addEngine hadd
    · rfl
  -- The steps of a start are taken off from the last to the first.
  unfold launch
  dsimp only
  rw [foldl_keeps backdrop_learnUnit]
  change (List.foldl tryEngine _ _).backdrop = _
  rw [foldl_keeps backdrop_tryEngine, foldl_keeps hseed]
  rfl

theorem backdrop_build (s : Setup) : (build s).backdrop = (blank s).backdrop :=
  backdrop_launch s _ _

/-! ## Requests -/

/-- Whether a request is about units, engines, drivers and deliveries alone. -/
def Request.sparesTasks : Request → Bool
  | .addEngine _ | .addUnit _ | .notifyUnit _ _ | .notifyEngine _ _ | .takeNotices
  | .offerEngine _ | .callDriver _ _ | .commit _ | .commitTo _ _ | .commitAll _ | .openGate _ _
  | .takeStats => true
  | _ => false

theorem backdrop_obey [PatternLibrary] (c : Cluster) {r : Request} (hr : r.sparesTasks = true) :
    (c.obey r).1.backdrop = c.backdrop := by
  cases r with
  | addEngine e => exact backdrop_orFault fun _ => backdrop_addEngine
  | addUnit u => exact backdrop_orFault fun _ => backdrop_addUnit
  | notifyUnit before after => exact foldl_keeps backdrop_unitCalled _ c
  | notifyEngine before after => exact foldl_keeps backdrop_engineCalled _ c
  | takeNotices => rfl
  | offerEngine e =>
    unfold obey
    dsimp only
    split
    · rename_i hoffer
      exact backdrop_offerEngine hoffer
    · rfl
  | callDriver e t =>
    unfold obey
    dsimp only
    split
    · rename_i s task _ _
      have hcall := backdrop_callDriver c s t task
      split <;> rename_i hpair <;> rw [hpair] at hcall <;> exact hcall
    · rfl
  | commit t => exact backdrop_orRefused fun _ => backdrop_commit
  | commitTo t u => exact backdrop_orRefused fun _ => backdrop_enqueue
  | commitAll ts =>
    have hcommit := backdrop_commitAll ts c
    unfold obey
    dsimp only
    split <;> rename_i hpair <;> rw [hpair] at hcommit <;> exact hcommit
  | openGate type n => exact backdrop_openGate c type n
  | takeStats => rfl
  | _ => cases hr

/-- Whether a request makes a task, or changes one, and does nothing else. -/
def Request.isTaskWork : Request → Bool
  | .newStorage _ _ _ _ _ | .newSource _ _ | .newGlobal _ | .copyTask _ | .follow _ _
  | .setFollower _ _ | .notifyParent _ | .execute _ | .setResult _ _ | .setSpan _ _
  | .executeGlobal _ => true
  | _ => false

/-- What tasks are no part of, such a request keeps. -/
theorem obey_keeps_of_isTaskWork [PatternLibrary] {β : Type} {g : Cluster → β}
    (htasks : ∀ c ts, g { c with tasks := ts } = g c) (c : Cluster) {r : Request}
    (hr : r.isTaskWork = true) : g (c.obey r).1 = g c := by
  cases r with
  | copyTask t =>
    unfold obey
    dsimp only
    repeat' split
    all_goals first | rfl | exact htasks c _
  | follow operators parents =>
    unfold obey
    dsimp only
    split
    · rename_i hfollow
      exact follow_keeps (fun c _ _ => htasks c _) (fun c _ _ => htasks c _) hfollow
    · rfl
  | setFollower t f =>
    unfold obey setFollower
    dsimp only
    split
    · rfl
    · exact htasks c _
  | execute t =>
    unfold obey executeMemory
    dsimp only
    split
    · rfl
    · exact htasks c _
  | executeGlobal t =>
    unfold obey
    dsimp only
    split
    · rfl
    · exact htasks c _
  | newStorage operators fragment isSync broadcasts session => exact htasks c _
  | newSource operators source => exact htasks c _
  | newGlobal operator => exact htasks c _
  | notifyParent t => exact htasks c _
  | setResult t r => exact htasks c _
  | setSpan t d => exact htasks c _
  | _ => cases hr

theorem traffic_obey [PatternLibrary] (c : Cluster) {r : Request} (hr : r.isTaskWork = true) :
    (c.obey r).1.traffic = c.traffic :=
  obey_keeps_of_isTaskWork (fun _ _ => rfl) c hr

theorem task?_congr {c c' : Cluster} (h : c'.backdrop = c.backdrop) (t : TaskId) :
    c'.task? t = c.task? t :=
  congrArg (fun a : Backdrop => a.tasks[t]?) h

end Cluster
end SeriesExec
