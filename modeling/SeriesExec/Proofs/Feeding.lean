import SeriesExec.Proofs.Conservation
import SeriesExec.Proofs.Followers

/-!
# Feeding — what followers get from their parents

A follower is made in the middle of a history.  What becomes of it depends on which parents end
after that, and how often.  This file defines:

* `Cluster.around` — a history in which a follower is made;
* `Cluster.Once` — nothing is handed over twice, and only tasks with a source are added to the
  memory stage;
* `Cluster.isDone` and `Cluster.isAhead` — whether a task is sync and has its result, and whether it
  has still to end.

Main statements: a follower with parents that end after it was made runs once, after all of them,
and gets the result of its operators over their results (`follower_released_once`); once nothing
moves, a follower has a result exactly if enough of its parents have ended after it was made
(`follower_result_iff`).
-/

namespace SeriesExec

open Traffic Roster

/-- Whether a task is one over rows of its own. -/
def Task.hasSource (x : Task) : Bool :=
  x.memory?.any fun m => m.source.isSome

namespace Cluster

variable {s : Setup} {events before after : List Event} {operators : List Operator}
  {parents : List TaskId} {f : TaskId} {c c₀ c₁ : Cluster}

/-- A history in which a follower is made. -/
def around (before : List Event) (operators : List Operator) (parents : List TaskId)
    (after : List Event) : List Event :=
  before ++ .asked (.follow operators parents) :: after

/-- Whether a task is sync and has its result. -/
def isDone (c : Cluster) (t : TaskId) : Bool :=
  (c.task? t).any fun x => x.isSync && x.result.isSome

theorem isDone_iff {t : TaskId} : c.isDone t = true ↔
    ∃ x, c.roster.task? t = some x ∧ x.isSync ∧ x.result.isSome := by
  rw [isDone, Option.any_eq_true]
  constructor
  · rintro ⟨x, hx, hdone⟩
    exact ⟨x.core, task?_roster hx, Bool.and_eq_true_iff.mp hdone⟩
  · rintro ⟨y, hy, hdone⟩
    rcases exists_task?_of_roster hy with ⟨x, hx, rfl⟩
    exact ⟨x, hx, Bool.and_eq_true_iff.mpr hdone⟩

/-- Whether a task is there, not over the cluster, and has no result yet. -/
def isAhead (c : Cluster) (t : TaskId) : Bool :=
  (c.task? t).any fun x => !x.isGlobal && x.result.isNone

theorem isAhead_iff {t : TaskId} : c.isAhead t = true ↔
    ∃ x, c.roster.task? t = some x ∧ x.isGlobal = false ∧ x.result = none := by
  rw [isAhead, Option.any_eq_true]
  constructor
  · rintro ⟨x, hx, hahead⟩
    rw [Bool.and_eq_true, Bool.not_eq_true', Option.isNone_iff_eq_none] at hahead
    exact ⟨x.core, task?_roster hx, x.core_isGlobal.trans hahead.1, hahead.2⟩
  · rintro ⟨y, hy, hglobal, hnone⟩
    rcases exists_task?_of_roster hy with ⟨x, hx, rfl⟩
    rw [Task.core_isGlobal] at hglobal
    rw [Task.core_result] at hnone
    exact ⟨x, hx, by rw [hglobal, hnone]; rfl⟩

/-! ## Tasks that are handed over once -/

section

variable [PatternLibrary]

/-- In the history that leads to `c`, no storage task is handed over twice, and only tasks with a
source of their own are added to the memory stage, none of them twice. -/
structure Once (s : Setup) (events : List Event) (c : Cluster) : Prop where
  delivered : (c.traffic.deliveries.map Delivery.task).Nodup
  added : ((build s).additions events).Nodup
  sources : ∀ t ∈ (build s).additions events, (c.task? t).any Task.hasSource

theorem Once.exists_source (h : Once s events c) {t : TaskId}
    (ht : t ∈ (build s).additions events) :
    ∃ x m, c.task? t = some x ∧ x.memory? = some m ∧ m.source.isSome := by
  rcases (Option.any_eq_true _ _).mp (h.sources t ht) with ⟨x, hx, hsource⟩
  rcases (Option.any_eq_true _ _).mp hsource with ⟨m, hm, hsome⟩
  exact ⟨x, m, hx, hm, hsome⟩

/-- A task with a source is released by no parent. -/
theorem Once.credit_eq_zero (h : Once s events c) (hc : c.Coherent) {t : TaskId}
    (ht : t ∈ (build s).additions events) : c.roster.credit t = 0 := by
  rcases h.exists_source ht with ⟨x, m, hx, hm, hsource⟩
  have hcore : x.core.memory? = some m := x.core_memory?.trans hm
  have hrequired := hc.typed.unfed t x.core m (task?_roster hx) hcore hsource
  refine Roster.credit_eq_zero ?_
  intro y hy
  rcases Option.some.inj ((task?_roster hx).symm.trans hy) with rfl
  simp [Task.wasReleased, hm, hrequired]

theorem Once.count_runs_le_one (h : Once s events c) (hhands : ∀ e ∈ events, e.isHandsOff = true)
    (hrun : (build s).run? events = some c) (t : TaskId) :
    ((build s).runs events).count t ≤ 1 := by
  have hbalance := balance_of_run? (coherent_build s) hhands hrun t
  have hstaged : (build s).staged = [] := congrArg Roster.staged (roster_build s)
  have hcredit : (build s).roster.credit t = 0 := by rw [roster_build]; rfl
  rw [hstaged, hcredit, List.count_nil] at hbalance
  -- A task with a source is added and never released; any other is released once at most, and
  -- never added.
  by_cases ht : t ∈ (build s).additions events
  · rw [h.credit_eq_zero ((coherent_build s).run? hrun) ht] at hbalance
    have hadded := List.nodup_iff_count_le_one.mp h.added t
    omega
  · rw [List.count_eq_zero.mpr ht] at hbalance
    have hle := credit_le_one c.roster t
    omega

/-- A task that is handed over once ends once at most. -/
theorem Once.count_endings_le_one (h : Once s events c)
    (hhands : ∀ e ∈ events, e.isHandsOff = true) (hrun : (build s).run? events = some c)
    (t : TaskId) : ((build s).endings events).count t ≤ 1 := by
  have hcount := count_endings (coherent_build s) hrun t
  have hruns := h.count_runs_le_one hhands hrun t
  have hpast : (c.traffic.past.map Delivery.task).count t ≤ 1 := by
    have hsublist : c.traffic.past.Sublist c.traffic.deliveries := List.sublist_append_right _ _
    exact Nat.le_trans ((hsublist.map Delivery.task).count_le t)
      (List.nodup_iff_count_le_one.mp h.delivered t)
  -- A task that runs is a memory task and has no deliveries; any other ends with its delivery.
  by_cases ht : t ∈ (build s).runs events
  · have hmemory := hasMemory_of_runs (coherent_build s) hrun ht
    rw [List.count_eq_zero.mpr (((coherent_build s).run? hrun).notMem_past hmemory)] at hcount
    omega
  · rw [List.count_eq_zero.mpr ht] at hcount
    omega

/-! ## The history of a follower -/

section History

variable (hbefore : (build s).run? before = some c₀)
  (hfollow : c₀.handle (.follow operators parents) = (c₁, .made f))
  (hafter : c₁.run? after = some c) (hhands : ∀ e ∈ before ++ after, e.isHandsOff = true)

include hbefore hfollow in
theorem registered_of_run? : c₁.Registered f operators none parents :=
  registered_of_handle ((coherent_build s).run? hbefore) hfollow

include hbefore hfollow in
/-- What a history with a follower in the middle does is what its parts do. -/
theorem trace_around {α : Type} (g : Cluster → Event → List α) (after : List Event) :
    (build s).trace g (around before operators parents after) = (build s).trace g before ++
      (g c₀ (.asked (.follow operators parents)) ++ c₁.trace g after) := by
  have hmade : c₀.after? (.asked (.follow operators parents)) = some c₁ := by rw [after?, hfollow]
  rw [around, trace_append g hbefore, trace_cons g hmade]

include hbefore hfollow in
theorem count_endings_le_around (after : List Event) (t : TaskId) : (c₁.endings after).count t ≤
    ((build s).endings (around before operators parents after)).count t := by
  rw [endings, endings, trace_around hbefore hfollow]
  exact ((List.sublist_append_right _ _).trans (List.sublist_append_right _ _)).count_le t

include hbefore hfollow hafter in
theorem run?_around : (build s).run? (around before operators parents after) = some c := by
  rw [around, run?_append, hbefore, Option.bind_some, run?, after?, hfollow]
  exact hafter

omit [PatternLibrary] in
include hhands in
theorem isHandsOff_around : ∀ e ∈ around before operators parents after, e.isHandsOff = true := by
  intro e he
  rcases List.mem_append.mp he with he | he
  · exact hhands e (List.mem_append_left _ he)
  · rcases List.mem_cons.mp he with rfl | he
    · rfl
    · exact hhands e (List.mem_append_right _ he)

include hbefore hfollow hafter in
/-- A follower has no source, so it is not added from outside if only tasks with a source are. -/
theorem Once.notMem_additions (honce : Once s (around before operators parents after) c)
    (hhands : ∀ e ∈ before ++ after, e.isHandsOff = true) : f ∉ c₁.additions after := by
  intro hadded
  have hregistered := registered_of_run? hbefore hfollow
  have hall : f ∈ (build s).additions (around before operators parents after) := by
    rw [additions, trace_around hbefore hfollow]
    exact List.mem_append_right _ (List.mem_append_right _ hadded)
  rcases honce.exists_source hall with ⟨x, m, hx, hm, hsource⟩
  obtain ⟨hfed, _⟩ :=
    hregistered.fed_of_run? (fun e he => hhands e (List.mem_append_right _ he)) hafter
  rcases hfed.self with ⟨y, m', hy, hm', _, hnone, _⟩
  rcases Option.some.inj ((task?_roster hx).symm.trans hy) with rfl
  rcases Option.some.inj ((x.core_memory?.trans hm).symm.trans hm') with rfl
  rw [hnone] at hsource
  cases hsource

include hfollow in
/-- A parent is still what it was once it has its follower. -/
theorem unended_of_follow {p : TaskId} (hp : p ∈ parents) (hahead : c₀.isAhead p = true) :
    (∀ y, c₁.roster.task? p = some y → y.isGlobal = false) ∧ c₁.roster.result? p = none := by
  rcases isAhead_iff.mp hahead with ⟨x, hx, hglobal, hnone⟩
  -- The parent has got its follower, and nothing else has happened to it.
  have hself : c₁.roster.task? p = some (x.setFollower f) := by
    rw [(linked_of_handle hfollow).parent p hp, hx, Option.map_some]
  refine ⟨?_, ?_⟩
  · intro y hy
    rcases Option.some.inj (hself.symm.trans hy) with rfl
    exact hglobal
  · rw [Roster.result?, hself]
    exact hnone

end History

/-! ## Parents that have ended -/

namespace Registered

variable {source : Option RowStream} (h : c₁.Registered f operators source parents)
  (hevents : ∀ e ∈ events, e.isHandsOff = true) (hrun : c₁.run? events = some c)
include h hrun

/-- If all parents are sync, each of their ends is reported. -/
theorem countP_reports (hdone : ∀ p ∈ parents, c.isDone p = true) :
    (c₁.endings events).countP (c₁.roster.reports parents) =
      (c₁.endings events).countP fun t => decide (t ∈ parents) := by
  refine List.countP_congr ?_
  intro t _
  rw [← h.fed.reports_eq (later_of_run? h.coherent hrun), reports, Bool.and_eq_true,
    and_iff_left_iff_imp]
  intro ht
  rcases isDone_iff.mp (hdone t (of_decide_eq_true ht)) with ⟨x, hx, hsync, _⟩
  rw [hx, Option.any_some, hsync]

include hevents in
/-- A parent that had no result gets one only by ending, unless it is a task over the cluster. -/
theorem mem_endings {p : TaskId} (hp : p ∈ parents)
    (hglobal : ∀ x, c₁.roster.task? p = some x → x.isGlobal = false)
    (hnone : c₁.roster.result? p = none) (hdone : c.isDone p = true) : p ∈ c₁.endings events := by
  rcases h.fed.exist p hp with ⟨x, hx⟩
  rcases isDone_iff.mp hdone with ⟨y, hy, _, hresult⟩
  -- A task over the cluster could have got its result without having ended.
  have hkind : ∀ y, c.roster.task? p = some y → y.isGlobal = false := by
    intro y hy
    rcases later_of_run? h.coherent hrun p x hx with ⟨z, hz, hxz⟩
    rcases Option.some.inj (hz.symm.trans hy) with rfl
    rw [hxz.isGlobal_eq]
    exact hglobal x hx
  have hforced := setsResult_of_isHandsOff hevents
  have hsome : (c.roster.result? p).isSome := by rwa [Roster.result?, hy, Option.bind_some]
  have hended := (Cluster.isSome_result?_iff h.coherent hforced hrun hkind).mp hsome
  rw [hnone] at hended
  exact hended.resolve_left (by simp)

include hevents in
/-- Once nothing moves, a follower has a result exactly if it was added from outside or enough of
its parents have ended after it was made. -/
theorem isSome_result?_iff_of_settled (hworkers : 0 < c.memory.workers)
    (hstarted : c.memory.isStarted = true) (hsettled : c.IsSettled)
    (hdone : ∀ p ∈ parents, c.isDone p = true) : (c.result? f).isSome ↔
      f ∈ c₁.additions events ∨ parents ≠ [] ∧
        parents.length ≤ (c₁.endings events).countP fun t => decide (t ∈ parents) := by
  -- A memory stage that is on and has settled is empty, so whoever came to it has run.
  rcases staged_of_settled hworkers hstarted hsettled with ⟨hqueue, hwaiting, hrunning⟩
  have hempty : c.staged = [] := by rw [staged, hqueue, hwaiting, hrunning]; rfl
  rw [← result?_roster, h.isSome_result?_iff hevents hrun hempty, h.countP_reports hrun hdone,
    List.length_pos_iff]

include hevents in
/-- Enough parents have ended if all have that had no result when the follower was made. -/
theorem length_le_countP_endings
    (hglobal : ∀ p ∈ parents, ∀ x, c₁.roster.task? p = some x → x.isGlobal = false)
    (hnone : ∀ p ∈ parents, c₁.roster.result? p = none)
    (hdone : ∀ p ∈ parents, c.isDone p = true) :
    parents.length ≤ (c₁.endings events).countP fun t => decide (t ∈ parents) :=
  length_le_countP h.nodup fun p hp =>
    ⟨h.mem_endings hevents hrun hp (hglobal p hp) (hnone p hp) (hdone p hp), decide_eq_true hp⟩

end Registered

/-! ## Whole histories -/

section History

variable (hbefore : (build s).run? before = some c₀)
  (hfollow : c₀.handle (.follow operators parents) = (c₁, .made f))
  (hafter : c₁.run? after = some c) (hhands : ∀ e ∈ before ++ after, e.isHandsOff = true)
include hbefore hfollow hafter hhands

/-- What becomes of a follower in a history in which no task is handed over twice, and whose parents
are tasks that have not ended when the follower is made:

* it comes to the memory stage once at most;
* it cannot run before all its parents have results, and never if one of them is not sync;
* once nothing moves and all its parents, of which there is one at least, are sync and have results,
  it has a result, which is that of its operators over their results. -/
theorem follower_released_once
    (honce : Once s (around before operators parents after) c)
    (hparents : ∀ p ∈ parents, c₀.isAhead p = true) :
    (c₁.arrivals after).count f ≤ 1 ∧
    (∀ elapsed, (c.step? (.runMemory f elapsed)).isSome → ∀ p ∈ parents, c.isDone p = true) ∧
    (c.IsSettled → c.memory.isStarted = true → parents ≠ [] →
      (∀ p ∈ parents, c.isDone p = true) →
        ∃ rs, parents.map c.result? = rs.map some ∧
          c.result? f = some (Task.fedResult operators none rs)) := by
  have hregistered := registered_of_run? hbefore hfollow
  have hevents : ∀ e ∈ after, e.isHandsOff = true := by
    intro e he
    exact hhands e (List.mem_append_right _ he)
  have hrun := run?_around hbefore hfollow hafter
  have hadded := honce.notMem_additions hbefore hfollow hafter hhands
  -- What comes before the follower can only add ends, so none of its parents ends twice after.
  have hends : ∀ p ∈ parents, (c₁.endings after).count p ≤ 1 := by
    intro p _
    refine Nat.le_trans ?_ (honce.count_endings_le_one (isHandsOff_around hhands) hrun p)
    exact count_endings_le_around hbefore hfollow after p
  refine ⟨hregistered.count_arrivals_le_one hevents hafter hadded, ?_, ?_⟩
  · intro elapsed hmove p hp
    rcases Option.isSome_iff_exists.mp hmove with ⟨c', hc'⟩
    have hstaged := mem_staged_of_runMemory? hc'
    exact isDone_iff.mpr (hregistered.parents_of_staged hevents hafter hadded hends hstaged p hp)
  · intro hsettled hstarted hne hdone
    have hlength := hregistered.length_le_countP_endings hevents hafter
      (fun p hp => (unended_of_follow hfollow hp (hparents p hp)).1)
      (fun p hp => (unended_of_follow hfollow hp (hparents p hp)).2) hdone
    have hsome := (hregistered.isSome_result?_iff_of_settled hevents hafter (memoryWorkers_pos hrun)
      hstarted hsettled hdone).mpr (.inr ⟨hne, hlength⟩)
    rcases Option.isSome_iff_exists.mp hsome with ⟨r, hr⟩
    obtain ⟨rs, hrs, rfl⟩ :=
      hregistered.served hevents hafter hadded hends r ((result?_roster c f).trans hr)
    exact ⟨rs, (List.map_congr_left fun p _ => (result?_roster c p).symm).trans hrs, hr⟩

end History

end

/-! ## Samples -/

/-- The task that a request has made. -/
def Reply.made? : Reply → Option TaskId
  | .made t => some t
  | _ => none

theorem Reply.eq_of_made? {r : Reply} {t : TaskId} (h : r.made? = some t) : r = .made t := by
  cases r <;> simp_all [Reply.made?]

/-- A storage task and a task with a source are made. -/
def sampleParents : List Event :=
  [.asked (.notifyUnit none (some (StorageUnit.newMaster "unit" 1))),
    .asked (.newStorage [] sampleFragment true false none), .asked (.newSource [] default)]

/-- Both tasks are handed over; the driver panics, and the follower of the two runs. -/
def sampleEnds : List Event :=
  [.asked (.addMemory [1]), .asked (.commit 0), .moved .admitMemory, .moved .startMemory,
    .moved (.runMemory 1 Duration.zero), .moved (.resolve "unit"), .moved (.dispatch "unit"),
    .moved (.start 1), .moved (.complete 0 Duration.zero), .moved .admitMemory,
    .moved .startMemory, .moved (.runMemory 2 Duration.zero)]

theorem exists_sample : ∃ c₀ c₁ c, (build sampleSetup).run? sampleParents = some c₀ ∧
    c₀.handle (.follow [] [0, 1]) = (c₁, .made 2) ∧ c₁.run? sampleEnds = some c ∧
    (∀ p ∈ [0, 1], c₀.isAhead p = true) ∧ 2 ∉ c₁.additions sampleEnds ∧
    Once sampleSetup (around sampleParents [] [0, 1] sampleEnds) c ∧ c.IsSettled ∧
    c.memory.isStarted = true ∧ ∀ p ∈ [0, 1], c.isDone p = true := by
  obtain ⟨c₀, hbefore, hmade, c, hafter, hahead, hadded, ⟨hdelivered, hnodup, hsources⟩, hrest⟩ :
      ∃ c₀ ∈ (build sampleSetup).run? sampleParents,
        (c₀.handle (.follow [] [0, 1])).2.made? = some 2 ∧
        ∃ c ∈ (c₀.handle (.follow [] [0, 1])).1.run? sampleEnds,
          (∀ p ∈ [0, 1], c₀.isAhead p = true) ∧
          2 ∉ (c₀.handle (.follow [] [0, 1])).1.additions sampleEnds ∧
          ((c.traffic.deliveries.map Delivery.task).Nodup ∧
            ((build sampleSetup).additions (around sampleParents [] [0, 1] sampleEnds)).Nodup ∧
            ∀ t ∈ (build sampleSetup).additions (around sampleParents [] [0, 1] sampleEnds),
              (c.task? t).any Task.hasSource) ∧
          c.IsSettled ∧ c.memory.isStarted = true ∧ ∀ p ∈ [0, 1], c.isDone p = true := by
    decide
  exact ⟨c₀, _, c, hbefore, Prod.ext rfl (Reply.eq_of_made? hmade), hafter, hahead, hadded,
    ⟨hdelivered, hnodup, hsources⟩, hrest⟩

theorem follower_released_once_sample : ∃ c₀ c₁ c,
    (build sampleSetup).run? sampleParents = some c₀ ∧
    c₀.handle (.follow [] [0, 1]) = (c₁, .made 2) ∧ c₁.run? sampleEnds = some c ∧
    (c₁.arrivals sampleEnds).count 2 ≤ 1 ∧ ∃ rs, [0, 1].map c.result? = rs.map some ∧
      c.result? 2 = some (Task.fedResult [] none rs) := by
  obtain ⟨c₀, c₁, c, hbefore, hfollow, hafter, hahead, _, honce, hsettled, hstarted, hdone⟩ :=
    exists_sample
  obtain ⟨harrivals, _, hresult⟩ :=
    follower_released_once hbefore hfollow hafter (by decide) honce hahead
  exact ⟨c₀, c₁, c, hbefore, hfollow, hafter, harrivals,
    hresult hsettled hstarted (by decide) hdone⟩

/-- A follower of no parents waits for ever. -/
theorem no_result_without_parents : ∃ c, (build sampleSetup).handle (.follow [] []) = (c, .made 0) ∧
    Once sampleSetup (around [] [] [] []) c ∧ c.IsSettled ∧ c.memory.isStarted = true ∧
    c.result? 0 = none := by
  obtain ⟨hmade, ⟨hdelivered, hnodup, hsources⟩, hrest⟩ :
      ((build sampleSetup).handle (.follow [] [])).2.made? = some 0 ∧
      ((((build sampleSetup).handle (.follow [] [])).1.traffic.deliveries.map Delivery.task).Nodup ∧
        ((build sampleSetup).additions (around [] [] [] [])).Nodup ∧
        ∀ t ∈ (build sampleSetup).additions (around [] [] [] []),
          (((build sampleSetup).handle (.follow [] [])).1.task? t).any Task.hasSource) ∧
      ((build sampleSetup).handle (.follow [] [])).1.IsSettled ∧
      ((build sampleSetup).handle (.follow [] [])).1.memory.isStarted = true ∧
      ((build sampleSetup).handle (.follow [] [])).1.result? 0 = none := by
    decide
  exact ⟨_, Prod.ext rfl (Reply.eq_of_made? hmade), ⟨hdelivered, hnodup, hsources⟩, hrest⟩

/-! ## Followers that wait for ever -/

section Waiting

variable [PatternLibrary] (hbefore : (build s).run? before = some c₀)
  (hfollow : c₀.handle (.follow operators parents) = (c₁, .made f))
  (hafter : c₁.run? after = some c) (hhands : ∀ e ∈ before ++ after, e.isHandsOff = true)
include hbefore hfollow hafter hhands

/-- A parent that ends after the follower was made, and only once, had not ended before. -/
theorem isAhead_of_endings {p : TaskId} (hp : p ∈ parents)
    (honce : ((build s).endings (around before operators parents after)).count p ≤ 1)
    (hended : p ∈ c₁.endings after) : c₀.isAhead p = true := by
  have hcoherent := (coherent_build s).run? hbefore
  have hregistered := registered_of_run? hbefore hfollow
  have hkind := isGlobal_eq_false (kind_of_endings hregistered.coherent hafter hended)
  rcases (linked_of_handle hfollow).free p hp with ⟨x, hx, _⟩
  have hlater : c₀.roster.Later c.roster := by
    have hmade : c₀.after? (.asked (.follow operators parents)) = some c₁ := by rw [after?, hfollow]
    exact (later_of_after? hcoherent hmade).trans (later_of_run? hregistered.coherent hafter)
  have hglobal : x.isGlobal = false := by
    rcases hlater p x hx with ⟨y, hy, hxy⟩
    exact hxy.isGlobal_eq.symm.trans (hkind y hy)
  refine isAhead_iff.mpr ⟨x, hx, hglobal, ?_⟩
  by_contra hresult
  have hforced := setsResult_of_isHandsOff fun e he => hhands e (List.mem_append_left after he)
  have hsome : (c₀.roster.result? p).isSome := by
    rw [Roster.result?, hx, Option.bind_some]
    exact Option.isSome_iff_ne_none.mpr hresult
  -- With a result at that time it had ended before, and would now end twice.
  have hearlier := (isSome_result?_iff (coherent_build s) hforced hbefore fun y hy => by
    rcases Option.some.inj (hx.symm.trans hy) with rfl
    exact hglobal).mp hsome
  have hunborn : (build s).roster.result? p = none := by rw [roster_build]; rfl
  rw [hunborn] at hearlier
  have hfirst := List.count_pos_iff.mpr (hearlier.resolve_left (by simp))
  have hlast := List.count_pos_iff.mpr hended
  rw [endings, trace_around hbefore hfollow, List.count_append, List.count_append] at honce
  rw [endings] at hlast
  omega

/-- Once nothing moves, and all parents of a follower are sync and have results, it has a result
exactly if it was added from outside, or has parents and as many ends of parents came after it was
made.  If no parent ends twice and nobody adds the follower, that is so exactly if it has parents
and none of them was over the cluster or had ended when the follower was made. -/
theorem follower_result_iff (hsettled : c.IsSettled) (hstarted : c.memory.isStarted = true)
    (hdone : ∀ p ∈ parents, c.isDone p = true) :
    ((c.result? f).isSome ↔ f ∈ c₁.additions after ∨ parents ≠ [] ∧
      parents.length ≤ (c₁.endings after).countP fun t => decide (t ∈ parents)) ∧
    ((∀ p ∈ parents, ((build s).endings (around before operators parents after)).count p ≤ 1) →
      f ∉ c₁.additions after →
        ((c.result? f).isSome ↔ parents ≠ [] ∧ ∀ p ∈ parents, c₀.isAhead p = true)) := by
  have hregistered := registered_of_run? hbefore hfollow
  have hevents : ∀ e ∈ after, e.isHandsOff = true := by
    intro e he
    exact hhands e (List.mem_append_right _ he)
  have hworkers := memoryWorkers_pos (run?_around hbefore hfollow hafter)
  have hiff := hregistered.isSome_result?_iff_of_settled hevents hafter hworkers hstarted hsettled
    hdone
  refine ⟨hiff, ?_⟩
  intro honce hadded
  rw [hiff, or_iff_right hadded, and_congr_right_iff]
  intro _
  constructor
  · intro hlength p hp
    have hends : ∀ p ∈ parents, (c₁.endings after).count p ≤ 1 := by
      intro p hp
      exact Nat.le_trans (count_endings_le_around hbefore hfollow after p) (honce p hp)
    -- As many ends as parents, none of them repeated, are one end of each parent.
    have hended := (mem_of_length_le_countP hends (fun _ => of_decide_eq_true) hlength p hp).1
    exact isAhead_of_endings hbefore hfollow hafter hhands hp (honce p hp) hended
  · intro hparents
    exact hregistered.length_le_countP_endings hevents hafter
      (fun p hp => (unended_of_follow hfollow hp (hparents p hp)).1)
      (fun p hp => (unended_of_follow hfollow hp (hparents p hp)).2) hdone

end Waiting

theorem follower_result_iff_sample : ∃ c₀ c₁ c,
    (build sampleSetup).run? sampleParents = some c₀ ∧
    c₀.handle (.follow [] [0, 1]) = (c₁, .made 2) ∧ c₁.run? sampleEnds = some c ∧
    (c.result? 2).isSome := by
  obtain ⟨c₀, c₁, c, hbefore, hfollow, hafter, hahead, hadded, _, hsettled, hstarted, hdone⟩ :=
    exists_sample
  have hends : ∀ p ∈ [0, 1],
      ((build sampleSetup).endings (around sampleParents [] [0, 1] sampleEnds)).count p ≤ 1 := by
    decide
  have hiff := follower_result_iff hbefore hfollow hafter (by decide) hsettled hstarted hdone
  exact ⟨c₀, c₁, c, hbefore, hfollow, hafter,
    (hiff.2 hends hadded).mpr ⟨by decide, hahead⟩⟩

/-- The follower of a task over the cluster waits for ever, although its parent has succeeded. -/
theorem no_result_after_global : ∃ c₀ c₁ c,
    (build sampleSetup).run? [.asked (.newGlobal (.listSeries ⟨[], none, none, 0⟩))] = some c₀ ∧
    c₀.handle (.follow [] [0]) = (c₁, .made 1) ∧ c₁.run? [.asked (.executeGlobal 0)] = some c ∧
    c.IsSettled ∧ c.memory.isStarted = true ∧ (∀ p ∈ [0], c.isDone p = true) ∧
    c.result? 1 = none := by
  obtain ⟨c₀, hbefore, hmade, c, hafter, hrest⟩ :
      ∃ c₀ ∈ (build sampleSetup).run? [.asked (.newGlobal (.listSeries ⟨[], none, none, 0⟩))],
        (c₀.handle (.follow [] [0])).2.made? = some 1 ∧
        ∃ c ∈ (c₀.handle (.follow [] [0])).1.run? [.asked (.executeGlobal 0)],
          c.IsSettled ∧ c.memory.isStarted = true ∧ (∀ p ∈ [0], c.isDone p = true) ∧
          c.result? 1 = none := by
    decide
  exact ⟨c₀, _, c, hbefore, Prod.ext rfl (Reply.eq_of_made? hmade), hafter, hrest⟩

end Cluster
end SeriesExec
