import SeriesExec.Proofs.Calls
import SeriesExec.Proofs.Pipelines
import SeriesExec.Proofs.Schedules

/-!
# Pushdown — where operators are applied makes no difference

What a task on a store reads can be worked on by the operators of that task, or by followers of it,
one of another.  This file defines:

* `Task.relay` — what the last of tasks ends with that are fed by one another;
* `Cluster.Waits` and `Cluster.Chain` — tasks that are fed by one another, and have not ended;
* `Cluster.Relayed` — a history of a task that reads and of such a chain behind it.

Main statements: a list of operators can be cut in two (`Pipeline.run_append`), so a chain makes of
rows what its operators together make of them (`Task.relay_eq_ok_iff`), and the last task of the
chain has that as its result (`Relayed.result?_eq_ok_iff`).  So it does not matter how operators are
cut (`pushdown_changes_nothing`).
-/

namespace SeriesExec

open Roster Store

namespace Task

variable [PatternLibrary] {r : TaskResult} {o : Output}

/-- What the last of tasks ends with that are fed by one another and have these operators, if the
first of them is fed by a task that has ended with `r`. -/
def relay (r : TaskResult) (parts : List (List Operator)) : TaskResult :=
  parts.foldl (fun r part => fedResult part none [r]) r

theorem relay_cons (r : TaskResult) (part : List Operator) (parts : List (List Operator)) :
    relay r (part :: parts) = relay (fedResult part none [r]) parts :=
  rfl

/-- A failure is handed on, wrapped once by each task. -/
theorem relay_error_ne_ok (e : Error) (parts : List (List Operator)) :
    relay (.error e) parts ≠ .ok o := by
  induction parts generalizing e with
  | nil => exact nofun
  | cons part rest ih => exact ih (.parentFailed e)

/-- For the success of the last task only the success of the first counts. -/
theorem relay_congr {r' : TaskResult} (h : ∀ o, r = .ok o ↔ r' = .ok o)
    (parts : List (List Operator)) : relay r parts = .ok o ↔ relay r' parts = .ok o := by
  cases r with
  | ok o₁ => rw [(h o₁).mp rfl]
  | error e =>
    cases r' with
    | ok o₁ => exact absurd ((h o₁).mpr rfl) nofun
    | error e' => exact iff_of_false (relay_error_ne_ok e parts) (relay_error_ne_ok e' parts)

/-- What followers make of rows, one after another, is what their operators together make of
them. -/
theorem relay_eq_ok_iff (first : List Operator) (rows : RowStream)
    (parts : List (List Operator)) :
    relay ((Pipeline.run first [rows]).map .rows) parts = .ok o ↔
      (Pipeline.run (first ++ parts.flatten) [rows]).map .rows = .ok o := by
  induction parts generalizing first rows with
  | nil => rw [List.flatten_nil, List.append_nil]; rfl
  | cons part rest ih =>
    rw [relay_cons, List.flatten_cons, Pipeline.run_append (.inr rfl)]
    cases Pipeline.run first [rows] with
    | error e => exact iff_of_false (relay_error_ne_ok _ rest) nofun
    | ok s => exact ih part s

end Task

namespace Cluster

variable {s s' : Setup} {before after before' after' : List Event} {c c₀ c' c₀' : Cluster}
  {patterns : List String} {bs : List Batch} {first operators : List Operator}
  {parts : List (List Operator)} {t f last : TaskId} {r : TaskResult}

/-! ## Chains -/

/-- The task `f` has these operators and waits for the end of the task `t`, and for nothing else. -/
def Waits (c : Cluster) (t f : TaskId) (operators : List Operator) : Prop :=
  ∃ x m, c.task? f = some x ∧ x.result = none ∧ x.operators = operators ∧ x.memory? = some m ∧
    m.source = none ∧ m.parents = [t]

/-- The task `last` is the end of a chain of tasks behind the task `t`, one for each of the lists of
operators, and each of them waits for the one before it. -/
def Chain (c : Cluster) : TaskId → List (List Operator) → TaskId → Prop
  | t, [], last => last = t
  | t, part :: parts, last => ∃ f, c.Waits t f part ∧ c.Chain f parts last

/-- A task with one parent that has ended gets the result of that parent. -/
theorem Determined.result?_of_done [PatternLibrary] (h : c.Determined f operators none [t])
    (hdone : c.isDone t = true) (hr : c.result? t = some r) :
    c.result? f = some (Task.fedResult operators none [r]) := by
  obtain ⟨r', hr'⟩ := Option.isSome_iff_exists.mp (h.isSome_iff.mpr (.inr
    ⟨List.cons_ne_nil _ _, fun p hp => List.mem_singleton.mp hp ▸ hdone⟩))
  obtain ⟨rs, hrs, rfl⟩ := h.result r' hr'
  rw [List.map_singleton, hr] at hrs
  obtain ⟨r₁, rest, rfl, hr₁, hrest⟩ := List.map_eq_cons_iff.mp hrs.symm
  obtain rfl := List.map_eq_nil_iff.mp hrest
  rw [hr', Option.some.inj hr₁]

section History

variable [PatternLibrary] (hmade : (build s).run? before = some c₀) (hrun : c₀.run? after = some c)
  (hhands : ∀ e ∈ before ++ after, e.isHandsOff = true) (honce : Once s (before ++ after) c)
  (hstarted : c.memory.isStarted = true) (hsettled : c.IsSettled) {x : Task}
  (hx : c₀.task? t = some x) (hglobal : x.isGlobal = false) (hnone : x.result = none)
include hmade hrun hhands honce hstarted hsettled hx hglobal hnone

/-- What a task ends with that waits for another one is determined by that one. -/
theorem Waits.determined (hwaits : c₀.Waits t f operators) : c.Determined f operators none [t] := by
  obtain ⟨y, m, hy, hunended, rfl, hm, hsource, hparents⟩ := hwaits
  obtain ⟨early, late, c₁, rfl, hearly, hlate, hborn⟩ := exists_born_of_unended hmade
    (fun e he => hhands e (List.mem_append_left _ he)) hy hm hunended
  rw [hsource, hparents] at hborn
  have hwhole : c₁.run? (late ++ after) = some c := by
    rw [run?_append, hlate, Option.bind_some, hrun]
  -- The other one has no result yet, so it had none when its follower was made.
  have hbefore : (∀ y, c₁.roster.task? t = some y → y.isGlobal = false) ∧
      c₁.roster.result? t = none := by
    obtain ⟨z, hz⟩ := hborn.registered.fed.exist t List.mem_cons_self
    refine unended_of_later (later_of_run? hborn.registered.coherent hlate) hz (task?_roster hx)
      (x.core_isGlobal.trans hglobal) ?_
    rw [result?_roster, result?, hx, Option.bind_some, hnone]
  exact hborn.determined hearly hwhole (List.append_assoc early late after ▸ hhands)
    (List.append_assoc early late after ▸ honce) hstarted hsettled
    (fun hfed => absurd hfed Bool.false_ne_true)
    (fun p hp => List.mem_singleton.mp hp ▸ hbefore.1)
    fun p hp => List.mem_singleton.mp hp ▸ hbefore.2

/-- What the first task of a chain ends with is relayed to the last. -/
theorem Chain.result? (hsync : parts ≠ [] → x.isSync = true) (hchain : c₀.Chain t parts last)
    (hr : c.result? t = some r) : c.result? last = some (Task.relay r parts) := by
  induction parts generalizing t x r with
  | nil =>
    obtain rfl : last = t := hchain
    exact hr
  | cons part rest ih =>
    obtain ⟨f, hwaits, hchain⟩ := hchain
    have hdone : c.isDone t = true := by
      rw [isDone_eq (later_of_run? ((coherent_build s).run? hmade) hrun) hx,
        hsync (List.cons_ne_nil _ _), hr]
      rfl
    have hf := (Waits.determined hmade hrun hhands honce hstarted hsettled hx hglobal hnone
      hwaits).result?_of_done hdone hr
    -- The follower is a memory task, so it is sync, and the chain goes on behind it.
    obtain ⟨y, m, hy, hunended, _, hm, _, _⟩ := hwaits
    have hmemory : y.isMemory = true := Option.isSome_of_eq_some hm
    have hsync : y.isSync = true := ((coherent_build s).run? hmade).typed.sync f y.core
      (task?_roster hy) (y.core_isMemory.trans hmemory)
    exact ih hy (Task.isGlobal_eq_false (.inr hmemory)) hunended (fun _ => hsync) hchain hf

end History

/-! ## Reading -/

/-- A history in which a task that reads and a chain of followers behind it are made, and are left
to loops and workers, until nothing moves.  A store is called for the reading task when its unit has
the batches `bs`.  None of the tasks has ended when `after` begins; no storage task is handed over
twice, only tasks with a source are added to the memory stage, and this is on in the end. -/
structure Relayed [PatternLibrary] (s : Setup) (before after : List Event) (c₀ c : Cluster)
    (patterns : List String)
    (bs : List Batch) (first : List Operator) (parts : List (List Operator)) (t last : TaskId) :
    Prop where
  made : (build s).run? before = some c₀
  run : c₀.run? after = some c
  handsOff : ∀ e ∈ before ++ after, e.isHandsOff = true
  once : Once s (before ++ after) c
  started : c.memory.isStarted = true
  settled : c.IsSettled
  reader : ∃ x, c₀.task? t = some x ∧ x.isStorage = true ∧ x.result = none ∧
    x.operators = .project patterns :: first ∧ (parts ≠ [] → x.isSync = true)
  chain : c₀.Chain t parts last
  called : (build s).CalledOver (before ++ after) t bs

/-- The rows that a task reads, after its other operators. -/
theorem executeOn_project [PatternLibrary] (st : Store) (u : UnitId) (t : TaskId)
    (patterns : List String)
    (first : List Operator) : (st.executeOn u t (.project patterns :: first)).2 =
      (Projection.fetch patterns (st.batches u)).bind fun rows =>
        (Pipeline.run first [rows]).map .rows := by
  rw [Store.executeOn]
  cases Projection.fetch patterns (st.batches u) <;> rfl

theorem exists_rows {x : Except Error RowStream} {o : Output} (h : x.map Output.rows = .ok o) :
    ∃ rows, o = .rows rows := by
  cases x with
  | error e => cases h
  | ok rows => exact ⟨rows, (Except.ok.inj h).symm⟩

/-- The last task of a chain ends, and it succeeds with what all operators together make of the rows
that are read. -/
theorem Relayed.result?_eq_ok_iff [PatternLibrary]
    (h : Relayed s before after c₀ c patterns bs first parts t last) :
    (c.result? last).isSome ∧ ∀ o, c.result? last = some (.ok o) ↔
      ((Projection.fetch patterns bs).bind fun rows =>
        (Pipeline.run (first ++ parts.flatten) [rows]).map .rows) = .ok o := by
  obtain ⟨x, hx, hstorage, hnone, hoperators, hsync⟩ := h.reader
  have hrun : (build s).run? (before ++ after) = some c := by
    rw [run?_append, h.made, Option.bind_some, h.run]
  have hlater := later_of_run? ((coherent_build s).run? h.made) h.run
  obtain ⟨st, u, rfl, hanswer⟩ := result?_of_calledOver hrun (setsResult_of_isHandsOff h.handsOff)
    h.once.delivered h.settled h.called
  rw [operatorsOf_of_later hlater hx, operatorsOf_eq hx, hoperators, executeOn_project] at hanswer
  have hlast := Chain.result? h.made h.run h.handsOff h.once h.started h.settled hx
    (Task.isGlobal_eq_false (.inl hstorage)) hnone hsync h.chain hanswer
  refine ⟨Option.isSome_of_eq_some hlast, fun o => ?_⟩
  rw [hlast, Option.some.injEq, Task.relay_congr fun _ => Outcome.result_answer_eq_ok_iff]
  cases Projection.fetch patterns (st.batches u) with
  | error e => exact iff_of_false (Task.relay_error_ne_ok e parts) nofun
  | ok rows => exact Task.relay_eq_ok_iff first rows parts

/-- Pushing operators down changes nothing.  A list of operators that is cut in two gives the same
rows or the same error, if there is an operator in the first part, or one input.  So a task that
reads and has all operators, and the last task of a chain that has them part by part, both end; they
succeed in the same cases, and then with the same rows. -/
theorem pushdown_changes_nothing [PatternLibrary] :
    (∀ xs ys inputs, xs ≠ [] ∨ inputs.length = 1 → Pipeline.run (xs ++ ys) inputs =
      (Pipeline.run xs inputs).bind fun s => Pipeline.run ys [s]) ∧
    (Relayed s before after c₀ c patterns bs operators [] t t →
      Relayed s' before' after' c₀' c' patterns bs first parts f last →
      operators = first ++ parts.flatten →
        (c.result? t).isSome ∧ (c'.result? last).isSome ∧
        (∀ o, c.result? t = some (.ok o) ↔ c'.result? last = some (.ok o)) ∧
        ∀ o, c.result? t = some (.ok o) → ∃ rows, o = .rows rows) := by
  refine ⟨fun xs ys inputs h => Pipeline.run_append h ys, fun hwhole hcut hoperators => ?_⟩
  obtain ⟨hends, hresult⟩ := hwhole.result?_eq_ok_iff
  obtain ⟨hends', hresult'⟩ := hcut.result?_eq_ok_iff
  rw [List.flatten_nil, List.append_nil, hoperators] at hresult
  refine ⟨hends, hends', fun o => (hresult o).trans (hresult' o).symm, fun o ho => ?_⟩
  have hrows := (hresult o).mp ho
  cases hread : Projection.fetch patterns bs with
  | error e =>
    rw [hread] at hrows
    cases hrows
  | ok rows =>
    rw [hread] at hrows
    exact exists_rows hrows

/-- Two rows of a series. -/
def loadBatch : Batch :=
  ⟨[⟨⟨keyName, .int64, false, Tags.empty⟩, [some (.int 1), some (.int 2)]⟩,
    ⟨⟨"load", .int64, true, Tags.empty⟩, [some (.int 3), some (.int 4)]⟩], 2, by simp⟩

/-- A unit of a store gets a batch.  Then its first row is read, once by a task with both operators,
and once by a chain of followers, the last of which has nothing to do. -/
def relayPlan : List Event :=
  [.asked (.notifyUnit none (some (StorageUnit.newMaster "unit" 1))),
    .asked (.newStorage [.insert loadBatch] sampleFragment true false none),
    .asked (.newStorage [.project ["*"], .limit 1 0] sampleFragment true false none),
    .asked (.newStorage [.project ["*"]] sampleFragment true false none),
    .asked (.follow [.limit 1 0] [2]), .asked (.follow [] [3])]

def relayEnds : List Event :=
  [.asked (.commitAll [0, 1, 2]), .moved (.resolve "unit"), .moved (.dispatch "unit"),
    .moved (.dispatch "unit"), .moved (.dispatch "unit"), .moved (.start 1),
    .moved (.complete 0 Duration.zero), .moved (.start 1), .moved (.complete 1 Duration.zero),
    .moved (.start 1), .moved (.complete 2 Duration.zero), .moved .admitMemory,
    .moved .startMemory, .moved (.runMemory 3 Duration.zero), .moved (.runMemory 4 Duration.zero)]

/-- The tasks before anything runs. -/
def relayTasks : List Task :=
  [Task.newStorage [.insert loadBatch] sampleFragment true false none,
    Task.newStorage [.project ["*"], .limit 1 0] sampleFragment true false none,
    (Task.newStorage [.project ["*"]] sampleFragment true false none).setFollower 3,
    (Task.newFollower [.limit 1 0] [2]).setFollower 4, Task.newFollower [] [3]]

theorem pushdown_changes_nothing_sample : ∃ c rows,
    (build memorySetup).run? (relayPlan ++ relayEnds) = some c ∧
    c.result? 1 = some (.ok (.rows rows)) ∧ c.result? 4 = some (.ok (.rows rows)) := by
  obtain ⟨c₀, hmade, c, hrun, hhands, hdelivered, hadded, hstarted, hstill, hok⟩ :
      ∃ c₀ ∈ (build memorySetup).run? relayPlan, ∃ c ∈ c₀.run? relayEnds,
        (∀ e ∈ relayPlan ++ relayEnds, e.isHandsOff = true) ∧
        (c.traffic.deliveries.map Delivery.task).Nodup ∧
        (build memorySetup).additions (relayPlan ++ relayEnds) = [] ∧
        c.memory.isStarted = true ∧ c.isStill = true ∧ ∃ r ∈ c.result? 1, r.isOk = true := by
    decide
  have hsettled := (isSettled_iff_isStill c).mpr hstill
  have honce : Once memorySetup (relayPlan ++ relayEnds) c :=
    ⟨hdelivered, hadded ▸ List.nodup_nil, fun t ht => by rw [hadded] at ht; cases ht⟩
  have htasks : c₀.tasks = relayTasks := by
    have hplan : ((build memorySetup).run? relayPlan).map Cluster.tasks = some relayTasks := rfl
    rw [hmade] at hplan
    exact Option.some.inj hplan
  have hfind : ∀ t, c₀.task? t = relayTasks[t]? := fun t => by rw [task?, htasks]
  have hwhole : Relayed memorySetup relayPlan relayEnds c₀ c ["*"] [loadBatch] [.limit 1 0] []
      1 1 :=
    { made := hmade, run := hrun, handsOff := hhands, once := honce, started := hstarted,
      settled := hsettled
      reader := ⟨_, hfind 1, rfl, rfl, rfl, fun hne => absurd rfl hne⟩
      chain := rfl
      called := calledOver_of_getElem? (n := 13) rfl (by decide) }
  have hcut : Relayed memorySetup relayPlan relayEnds c₀ c ["*"] [loadBatch] []
      [[.limit 1 0], []] 2 4 :=
    { made := hmade, run := hrun, handsOff := hhands, once := honce, started := hstarted,
      settled := hsettled
      reader := ⟨_, hfind 2, rfl, rfl, rfl, fun _ => rfl⟩
      chain := ⟨3, ⟨_, _, hfind 3, rfl, rfl, rfl, rfl, rfl⟩, 4,
        ⟨_, _, hfind 4, rfl, rfl, rfl, rfl, rfl⟩, rfl⟩
      called := calledOver_of_getElem? (n := 15) rfl (by decide) }
  obtain ⟨_, _, hsame, hrows⟩ := pushdown_changes_nothing.2 hwhole hcut rfl
  obtain ⟨r, hr, hr'⟩ := hok
  cases r with
  | error e => cases hr'
  | ok o =>
    obtain ⟨rows, rfl⟩ := hrows o hr
    have hboth : (build memorySetup).run? (relayPlan ++ relayEnds) = some c :=
      run?_append _ relayPlan relayEnds ▸ Option.bind_eq_some_iff.mpr ⟨c₀, hmade, hrun⟩
    exact ⟨c, rows, hboth, hr, (hsame _).mp hr⟩

end Cluster
end SeriesExec
