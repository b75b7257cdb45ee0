import SeriesExec.Proofs.Lineage

/-!
# Schedules — results that do not depend on the order of events

The same tasks can run in many orders: storage tasks end and sources are added in any order, a
follower goes on behind the parent that ends last, be it on a memory worker or through the queue of
the memory stage, and there may be any number of workers.  This file defines:

* `Cluster.Execution` — a history in which tasks are made, and then run until nothing moves;
* `Cluster.Determined` — what the end of a memory task depends on.

Main statement: two executions of the same tasks in which the storage tasks end with the same
results give the same results to all memory tasks (`results_independent_of_schedule`).  It goes from
parents to followers, and rests on `Execution.determined`: a memory task ends exactly if it has a
source or all its parents have ended, and its result is that of its operators over theirs.
-/

namespace SeriesExec

open Traffic Roster

namespace Cluster

variable {s s' : Setup} {plan plan' events events' : List Event} {operators : List Operator}
  {source : Option RowStream} {parents : List TaskId} {p f : TaskId} {x : Task} {m : MemoryShape}
  {c c' c₀ c₀' : Cluster}

/-! ## What the end of a memory task depends on -/

/-- The memory task `f` ends exactly if it has a source or all its parents have ended, and its
result is that of its operators over its source and the results of its parents. -/
structure Determined [PatternLibrary] (c : Cluster) (f : TaskId) (operators : List Operator)
    (source : Option RowStream) (parents : List TaskId) : Prop where
  isSome_iff : (c.result? f).isSome ↔
    source.isSome ∨ parents ≠ [] ∧ ∀ p ∈ parents, c.isDone p = true
  result : ∀ r, c.result? f = some r →
    ∃ rs, parents.map c.result? = rs.map some ∧ r = Task.fedResult operators source rs

/-- What is determined by the same things is the same. -/
theorem Determined.result?_eq [PatternLibrary] (h : c.Determined f operators source parents)
    (h' : c'.Determined f operators source parents)
    (hresult : ∀ p ∈ parents, c'.result? p = c.result? p)
    (hdone : ∀ p ∈ parents, c'.isDone p = c.isDone p) : c'.result? f = c.result? f := by
  have hsome : (c'.result? f).isSome ↔ (c.result? f).isSome := by
    rw [h.isSome_iff, h'.isSome_iff]
    exact or_congr_right (and_congr_right fun _ => forall₂_congr fun p hp => by rw [hdone p hp])
  cases hr : c.result? f with
  | none => simpa [hr] using hsome
  | some r =>
    obtain ⟨r', hr'⟩ := Option.isSome_iff_exists.mp (hsome.mpr (Option.isSome_of_eq_some hr))
    obtain ⟨rs, hrs, rfl⟩ := h.result r hr
    obtain ⟨rs', hrs', rfl⟩ := h'.result r' hr'
    have hsame : rs'.map some = rs.map some :=
      hrs'.symm.trans ((List.map_congr_left hresult).trans hrs)
    rw [hr', List.map_injective_iff.mpr (fun _ _ => Option.some.inj) hsame]

theorem isDone_eq (hlater : c₀.roster.Later c.roster) (hx : c₀.task? p = some x) :
    c.isDone p = (x.isSync && (c.result? p).isSome) := by
  obtain ⟨y, hy, hxy⟩ := hlater p x.core (task?_roster hx)
  obtain ⟨z, hz, rfl⟩ := exists_task?_of_roster hy
  have hsync : z.isSync = x.isSync := hxy.isSync_eq
  rw [isDone, result?, hz, Option.any_some, Option.bind_some, hsync]

/-- A task that is not over the cluster and has not ended was so, and had not ended, before. -/
theorem unended_of_later (hlater : c₀.roster.Later c.roster) {y : Task}
    (hy : c₀.roster.task? p = some y) (hx : c.roster.task? p = some x)
    (hglobal : x.isGlobal = false) (hnone : c.roster.result? p = none) :
    (∀ y, c₀.roster.task? p = some y → y.isGlobal = false) ∧ c₀.roster.result? p = none := by
  obtain ⟨z, hz, hyz⟩ := hlater p y hy
  obtain rfl := Option.some.inj (hx.symm.trans hz)
  refine ⟨fun y' hy' => ?_, ?_⟩
  · rw [← Option.some.inj (hy.symm.trans hy'), ← hyz.isGlobal_eq, hglobal]
  · -- A result would have stayed.
    by_contra hsome
    obtain ⟨r, hr⟩ := Option.ne_none_iff_exists'.mp hsome
    exact Option.some_ne_none r ((hlater.result? hr).symm.trans hnone)

section

variable [PatternLibrary]

section Settled

variable (hrun : (build s).run? events = some c) (hhands : ∀ e ∈ events, e.isHandsOff = true)
  (hstarted : c.memory.isStarted = true) (hsettled : c.IsSettled)
include hrun hhands hstarted hsettled

/-- A task that was added has run by the time nothing moves. -/
theorem isSome_result?_of_added (hadded : f ∈ (build s).additions events)
    (hmemory : c.roster.HasMemory f) : (c.roster.result? f).isSome := by
  have hbalance := balance_of_run? (coherent_build s) hhands hrun f
  have hstaged : (build s).staged = [] := congrArg Roster.staged (roster_build s)
  have hcredit : (build s).roster.credit f = 0 := by rw [roster_build]; rfl
  have hpos := List.count_pos_iff.mpr hadded
  have hnothing : c.staged = [] := by
    obtain ⟨hqueue, hwaiting, hrunning⟩ :=
      staged_of_settled (memoryWorkers_pos hrun) hstarted hsettled
    rw [staged, hqueue, hwaiting, hrunning]
    rfl
  rw [hnothing, hstaged, hcredit, List.count_nil] at hbalance
  have hran : f ∈ (build s).runs events := List.count_pos_iff.mp (by omega)
  refine (Cluster.isSome_result?_iff_mem_runs (coherent_build s)
    (setsResult_of_isHandsOff hhands) hrun ?_ ?_ hmemory).mpr hran
  · rw [Traffic.past, show (build s).traffic.finished = [] from finished_build s]
    exact List.not_mem_nil
  · rw [roster_build]
    rfl

end Settled

/-- If none of its parents has ended when a memory task is made, then what it ends with is
determined by what it was made with. -/
theorem Born.determined {before after : List Event} {c₁ : Cluster}
    (hborn : c₁.Born f operators source parents) (hbefore : (build s).run? before = some c₁)
    (hafter : c₁.run? after = some c) (hhands : ∀ e ∈ before ++ after, e.isHandsOff = true)
    (honce : Once s (before ++ after) c) (hstarted : c.memory.isStarted = true)
    (hsettled : c.IsSettled)
    (hadded : source.isSome → f ∈ (build s).additions (before ++ after))
    (hglobal : ∀ p ∈ parents, ∀ y, c₁.roster.task? p = some y → y.isGlobal = false)
    (hunended : ∀ p ∈ parents, c₁.roster.result? p = none) :
    c.Determined f operators source parents := by
  have hrun : (build s).run? (before ++ after) = some c := by
    rw [run?_append, hbefore, Option.bind_some, hafter]
  refine ⟨⟨fun hsome => ?_, ?_⟩, fun r hr => ?_⟩
  · rw [← result?_roster] at hsome
    exact (hborn.done_of_result hbefore hafter hhands honce hsome).imp_right
      (And.imp_right fun hparents p hp => (hparents p hp).2)
  · rintro (hsource | ⟨hne, hdone⟩)
    · rw [← result?_roster]
      exact isSome_result?_of_added hrun hhands hstarted hsettled (hadded hsource)
        (hborn.fed hafter hhands).hasMemory
    · -- None of the parents had ended when the follower was made, so all their ends counted.
      have hevents : ∀ e ∈ after, e.isHandsOff = true :=
        fun e he => hhands e (List.mem_append_right _ he)
      have hlength :=
        hborn.registered.length_le_countP_endings hevents hafter hglobal hunended hdone
      exact (hborn.registered.isSome_result?_iff_of_settled hevents hafter (memoryWorkers_pos hrun)
        hstarted hsettled hdone).mpr (.inr ⟨hne, hlength⟩)
  · obtain ⟨rs, hrs, heq⟩ :=
      hborn.served hbefore hafter hhands honce r ((result?_roster c f).trans hr)
    exact ⟨rs, (List.map_congr_left fun p _ => (result?_roster c p).symm).trans hrs, heq⟩

/-! ## Executions -/

/-- The history `plan` makes the tasks of `c₀`, none of which ends in it, and `events` runs them
until nothing moves.  Tasks are left to loops and workers, no storage task is handed over twice,
every task with a source is added once, and the memory stage is on in the end. -/
structure Execution (s : Setup) (plan events : List Event) (c₀ c : Cluster) : Prop where
  made : (build s).run? plan = some c₀
  run : c₀.run? events = some c
  handsOff : ∀ e ∈ plan ++ events, e.isHandsOff = true
  once : Once s (plan ++ events) c
  fresh : (build s).endings plan = []
  added : ∀ t x, c₀.task? t = some x → x.hasSource = true →
    t ∈ (build s).additions (plan ++ events)
  started : c.memory.isStarted = true
  settled : c.IsSettled

namespace Execution

variable (h : Execution s plan events c₀ c)
include h

theorem run_build : (build s).run? (plan ++ events) = some c := by
  rw [run?_append, h.made, Option.bind_some, h.run]

theorem later : c₀.roster.Later c.roster :=
  later_of_run? ((coherent_build s).run? h.made) h.run

/-- No task has a result before anything runs, except those over the cluster. -/
theorem result?_eq_none {y : Task} (hy : c₀.roster.task? p = some y)
    (hglobal : y.isGlobal = false) : c₀.roster.result? p = none := by
  have hforced := setsResult_of_isHandsOff fun e he => h.handsOff e (List.mem_append_left _ he)
  have hiff := Cluster.isSome_result?_iff (coherent_build s) hforced h.made fun z hz =>
    Option.some.inj (hy.symm.trans hz) ▸ hglobal
  rw [show (build s).trace endedBy plan = [] from h.fresh, roster_build] at hiff
  exact Option.not_isSome_iff_eq_none.mp fun hsome => by simpa [Roster.result?] using hiff.mp hsome

/-- A memory task was made with the parents that it lists before anything runs, and they were made
before it. -/
theorem exists_born (hx : c₀.task? f = some x) (hm : x.memory? = some m) :
    ∃ before after c₁, plan = before ++ after ∧ (build s).run? before = some c₁ ∧
      c₁.run? after = some c₀ ∧ c₁.Born f x.operators m.source m.parents := by
  have hmemory : c₀.roster.HasMemory f :=
    ⟨x.core, task?_roster hx, x.core_isMemory.trans (Option.isSome_of_eq_some hm)⟩
  have hnone := h.result?_eq_none (task?_roster hx)
    (isGlobal_eq_false (.inr hmemory) _ (task?_roster hx))
  rw [result?_roster, result?, hx, Option.bind_some] at hnone
  exact exists_born_of_unended h.made (fun e he => h.handsOff e (List.mem_append_left _ he)) hx hm
    hnone

/-- The parents of a memory task were made before it, and it is their follower. -/
theorem parent (hx : c₀.task? f = some x) (hm : x.memory? = some m) (hp : p ∈ m.parents) :
    p < f ∧ ∃ y, c₀.task? p = some y ∧ y.follower = some f := by
  obtain ⟨before, after, c₁, rfl, hbefore, hafter, hborn⟩ := h.exists_born hx hm
  have hfed := hborn.fed hafter fun e he => h.handsOff e (List.mem_append_left _ he)
  refine ⟨hborn.older p hp, ?_⟩
  obtain ⟨z, hz⟩ := hfed.exist p hp
  obtain ⟨y, hy, rfl⟩ := exists_task?_of_roster hz
  exact ⟨y, hy, (hfed.follower p _ hz).mpr hp⟩

variable (hkinds : ∀ p x, c₀.task? p = some x → x.follower.isSome → x.isGlobal = false)
include hkinds

/-- The parents of a memory task that has just been made are no tasks over the cluster and have not
ended. -/
theorem unended {after : List Event} {c₁ : Cluster} (hafter : c₁.run? after = some c₀)
    (hborn : c₁.Born f operators source parents)
    (hparent : ∀ p ∈ parents, ∃ y, c₀.task? p = some y ∧ y.follower = some f) (hp : p ∈ parents) :
    (∀ y, c₁.roster.task? p = some y → y.isGlobal = false) ∧ c₁.roster.result? p = none := by
  have hlater := later_of_run? hborn.registered.coherent hafter
  obtain ⟨y, hy⟩ := hborn.registered.fed.exist p hp
  obtain ⟨x, hx, hfollower⟩ := hparent p hp
  have hglobal : x.core.isGlobal = false :=
    x.core_isGlobal.trans (hkinds p x hx (Option.isSome_of_eq_some hfollower))
  exact unended_of_later hlater hy (task?_roster hx) hglobal
    (h.result?_eq_none (task?_roster hx) hglobal)

/-- What a memory task ends with is determined by what it was made with. -/
theorem determined (hx : c₀.task? f = some x) (hm : x.memory? = some m) :
    c.Determined f x.operators m.source m.parents := by
  obtain ⟨before, after, c₁, rfl, hbefore, hafter, hborn⟩ := h.exists_born hx hm
  have hunended := fun p (hp : p ∈ m.parents) =>
    h.unended hkinds hafter hborn (fun q hq => (h.parent hx hm hq).2) hp
  have hrun : c₁.run? (after ++ events) = some c := by
    rw [run?_append, hafter, Option.bind_some, h.run]
  refine hborn.determined hbefore hrun (List.append_assoc before after events ▸ h.handsOff)
    (List.append_assoc before after events ▸ h.once) h.started h.settled (fun hsource => ?_)
    (fun p hp => (hunended p hp).1) fun p hp => (hunended p hp).2
  rw [← List.append_assoc]
  exact h.added f x hx (by rw [Task.hasSource, hm]; exact hsource)

/-- What feeds a memory task is a storage task, or a memory task that was made before it. -/
theorem parent_cases (hx : c₀.task? f = some x) (hm : x.memory? = some m) (hp : p ∈ m.parents) :
    ∃ y, c₀.task? p = some y ∧ y.follower.isSome ∧
      (y.isStorage = true ∨ p < f ∧ y.isMemory = true) := by
  obtain ⟨hlt, y, hy, hfollower⟩ := h.parent hx hm hp
  have hfed := Option.isSome_of_eq_some hfollower
  have hglobal := hkinds p y hy hfed
  refine ⟨y, hy, hfed, ?_⟩
  rcases y with ⟨_, _, _, _, _, _, _ | _ | _⟩
  · exact .inl rfl
  · exact .inr ⟨hlt, rfl⟩
  · cases hglobal

/-- If the storage tasks end with the same results, so do the memory tasks. -/
theorem result?_eq (h' : Execution s' plan' events' c₀' c') (htasks : c₀'.tasks = c₀.tasks)
    (hstorage : ∀ t x, c₀.task? t = some x → x.isStorage = true → c'.result? t = c.result? t)
    (hx : c₀.task? f = some x) (hmemory : x.isMemory = true) : c'.result? f = c.result? f := by
  have htask : c₀'.task? = c₀.task? := by
    funext t
    rw [task?, htasks, task?]
  -- From the parents, which were made before it, to the follower.
  induction f using Nat.strongRecOn generalizing x with
  | _ f ih =>
    obtain ⟨m, hm⟩ := Option.isSome_iff_exists.mp hmemory
    have hresult : ∀ p ∈ m.parents, c'.result? p = c.result? p := by
      intro p hp
      obtain ⟨y, hy, _, hkind | ⟨hlt, hkind⟩⟩ := h.parent_cases hkinds hx hm hp
      · exact hstorage p y hy hkind
      · exact ih p hlt hy hkind
    refine (h.determined hkinds hx hm).result?_eq
      (h'.determined (htask ▸ hkinds) (htask ▸ hx) hm) hresult fun p hp => ?_
    obtain ⟨y, hy, _⟩ := h.parent_cases hkinds hx hm hp
    rw [isDone_eq h'.later (htask ▸ hy), isDone_eq h.later hy, hresult p hp]

/-- If the storage tasks that feed others are sync and end, all memory tasks end. -/
theorem isSome_result? (hstorage : ∀ t x, c₀.task? t = some x → x.isStorage = true →
      x.follower.isSome → x.isSync = true ∧ (c.result? t).isSome)
    (hfed : ∀ t x m, c₀.task? t = some x → x.memory? = some m → m.source.isSome ∨ m.parents ≠ [])
    (hx : c₀.task? f = some x) (hmemory : x.isMemory = true) : (c.result? f).isSome := by
  induction f using Nat.strongRecOn generalizing x with
  | _ f ih =>
    obtain ⟨m, hm⟩ := Option.isSome_iff_exists.mp hmemory
    refine (h.determined hkinds hx hm).isSome_iff.mpr ((hfed f x m hx hm).imp_right fun hne =>
      ⟨hne, fun p hp => ?_⟩)
    obtain ⟨y, hy, hfollower, hkind⟩ := h.parent_cases hkinds hx hm hp
    rw [isDone_eq h.later hy, Bool.and_eq_true]
    rcases hkind with hkind | ⟨hlt, hkind⟩
    · exact hstorage p y hy hkind hfollower
    · have htyped := ((coherent_build s).run? h.made).typed
      exact ⟨htyped.sync p y.core (task?_roster hy) (y.core_isMemory.trans hkind),
        ih p hlt hy hkind⟩

end Execution

/-- Two executions of the same tasks, which may differ in the order in which storage tasks end and
tasks with a source are added, in the workers and in all else.  If all storage tasks end with the
same results, all memory tasks do; and they do end if the storage tasks that feed others are sync
and end, and each memory task has a source or a parent. -/
theorem results_independent_of_schedule (h : Execution s plan events c₀ c)
    (h' : Execution s' plan' events' c₀' c') (htasks : c₀'.tasks = c₀.tasks)
    (hkinds : ∀ p x, c₀.task? p = some x → x.follower.isSome → x.isGlobal = false)
    (hstorage : ∀ t x, c₀.task? t = some x → x.isStorage = true →
      c'.result? t = c.result? t) :
    (∀ f x, c₀.task? f = some x → x.isMemory = true → c'.result? f = c.result? f) ∧
    ((∀ t x, c₀.task? t = some x → x.isStorage = true → x.follower.isSome →
        x.isSync = true ∧ (c.result? t).isSome) →
      (∀ t x m, c₀.task? t = some x → x.memory? = some m → m.source.isSome ∨ m.parents ≠ []) →
        ∀ f x, c₀.task? f = some x → x.isMemory = true → (c.result? f).isSome) :=
  ⟨fun _ _ hx hmemory => h.result?_eq hkinds h' htasks hstorage hx hmemory,
    fun hends hfed _ _ hx hmemory => h.isSome_result? hkinds hends hfed hx hmemory⟩

/-! ## Samples -/

/-- What has to be looked at in a history to tell that it is an execution. -/
theorem exists_execution (h : ∃ c₀ ∈ (build s).run? plan, ∃ c ∈ c₀.run? events,
    (∀ e ∈ plan ++ events, e.isHandsOff = true) ∧
    ((c.traffic.deliveries.map Delivery.task).Nodup ∧
      ((build s).additions (plan ++ events)).Nodup ∧
      ∀ t ∈ (build s).additions (plan ++ events), (c.task? t).any Task.hasSource = true) ∧
    (build s).endings plan = [] ∧
    (∀ t < c₀.tasks.length, (c₀.task? t).any Task.hasSource = true →
      t ∈ (build s).additions (plan ++ events)) ∧
    c.memory.isStarted = true ∧ c.IsSettled) : ∃ c₀ c, Execution s plan events c₀ c := by
  obtain ⟨c₀, hmade, c, hrun, hhands, ⟨hdelivered, hnodup, hsources⟩, hfresh, hadded, hrest⟩ := h
  refine ⟨c₀, c, hmade, hrun, hhands, ⟨hdelivered, hnodup, hsources⟩, hfresh, ?_, hrest.1, hrest.2⟩
  intro t x hx hsource
  exact hadded t (lt_of_task?_eq_some hx) (by rwa [hx, Option.any_some])

end

/-- The setup with one memory worker only. -/
def loneSetup : Setup :=
  { sampleSetup with config := { sampleSetup.config with memoryWorkers := 1 } }

/-- The storage task ends first, and the followers go on behind the task with a source. -/
def lateSourceEnds : List Event :=
  [.asked (.commit 0), .moved (.resolve "unit"), .moved (.dispatch "unit"), .moved (.start 1),
    .moved (.complete 0 Duration.zero), .asked (.addMemory [1]), .moved .admitMemory,
    .moved .startMemory, .moved (.runMemory 1 Duration.zero), .moved (.runMemory 2 Duration.zero),
    .moved (.runMemory 3 Duration.zero)]

/-- The tasks of the chain before anything runs. -/
def chainTasks : List Task :=
  [(Task.newStorage [] sampleFragment true false none).setFollower 2,
    (Task.newSource [] default).setFollower 2, (Task.newFollower [] [0, 1]).setFollower 3,
    Task.newFollower [] [2]]

theorem results_independent_of_schedule_sample : ∃ c₀ c c₀' c',
    Execution sampleSetup chainPlan chainEnds c₀ c ∧
    Execution loneSetup chainPlan lateSourceEnds c₀' c' ∧
    ∀ f ∈ [1, 2, 3], c'.result? f = c.result? f ∧ (c.result? f).isSome := by
  obtain ⟨c₀, c, h⟩ : ∃ c₀ c, Execution sampleSetup chainPlan chainEnds c₀ c :=
    exists_execution (by decide)
  obtain ⟨c₀', c', h'⟩ : ∃ c₀ c, Execution loneSetup chainPlan lateSourceEnds c₀ c :=
    exists_execution (by decide)
  have htasks : c₀.tasks = chainTasks := by
    have hplan : ((build sampleSetup).run? chainPlan).map Cluster.tasks = some chainTasks := rfl
    rw [h.made] at hplan
    exact Option.some.inj hplan
  have htasks' : c₀'.tasks = chainTasks := by
    have hplan : ((build loneSetup).run? chainPlan).map Cluster.tasks = some chainTasks := rfl
    rw [h'.made] at hplan
    exact Option.some.inj hplan
  -- The one storage task ends in both executions with the panic of its driver.
  have hpanic : c.result? 0 = some (.error (.execution (.fault .driverPanicked))) := by
    have hends : ((build sampleSetup).run? (chainPlan ++ chainEnds)).bind (fun c => c.result? 0) =
      some (.error (.execution (.fault .driverPanicked))) := rfl
    rwa [h.run_build] at hends
  have hpanic' : c'.result? 0 = some (.error (.execution (.fault .driverPanicked))) := by
    have hends : ((build loneSetup).run? (chainPlan ++ lateSourceEnds)).bind
      (fun c => c.result? 0) = some (.error (.execution (.fault .driverPanicked))) := rfl
    rwa [h'.run_build] at hends
  have hfind : ∀ {t x}, c₀.task? t = some x → chainTasks[t]? = some x := by
    intro t x hx
    rwa [task?, htasks] at hx
  have honly : ∀ {t x}, c₀.task? t = some x → x.isStorage = true → t = 0 := by
    intro t x hx hstorage
    have hall : ∀ t < 4, (chainTasks[t]?).any Task.isStorage = true → t = 0 := by decide
    have hlt := htasks ▸ lt_of_task?_eq_some hx
    exact hall t hlt (by rwa [hfind hx, Option.any_some])
  have hchain : ∀ x ∈ chainTasks, x.isGlobal = false ∧ x.isSync = true ∧
      ∀ m ∈ x.memory?, m.source.isSome ∨ m.parents ≠ [] := by decide
  have hlisted : ∀ {t x}, c₀.task? t = some x → x ∈ chainTasks :=
    fun hx => List.mem_of_getElem? (hfind hx)
  obtain ⟨hsame, hends⟩ := results_independent_of_schedule h h' (htasks'.trans htasks.symm)
    (fun p x hx _ => (hchain x (hlisted hx)).1)
    (fun t x hx hstorage => by rw [honly hx hstorage, hpanic, hpanic'])
  have hall := hends
    (fun t x hx hstorage _ => ⟨(hchain x (hlisted hx)).2.1, by rw [honly hx hstorage, hpanic]; rfl⟩)
    (fun t x m hx hm => (hchain x (hlisted hx)).2.2 m hm)
  refine ⟨c₀, c, c₀', c', h, h', fun f hf => ?_⟩
  have hmemory : ∀ f ∈ [1, 2, 3], ∃ x ∈ chainTasks[f]?, x.isMemory = true := by decide
  obtain ⟨x, hx, hkind⟩ := hmemory f hf
  have htask : c₀.task? f = some x := by rwa [task?, htasks]
  exact ⟨hsame f x htask hkind, hall f x htask hkind⟩

end Cluster
end SeriesExec
