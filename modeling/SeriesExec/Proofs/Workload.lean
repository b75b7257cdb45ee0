import SeriesExec.Cluster.Settle
import SeriesExec.Proofs.Broadcast

/-!
# Workload — every row of moves comes to an end

A delivery has at most three moves before it: its loop takes it, a worker starts it, and it ends.
That end may bring in as many deliveries as the group of its task has members, but what they bring
in is nothing, since copies are not copied.  A follower has three moves of its own, and is released
once.  So the work that is left (`Cluster.work`) has to fall with every move.  This file defines:

* `Task.echoes` and `Task.deeds` — how many copies a task may cause, and what has happened to it;
* `Traffic.load`, `Traffic.seekers` and `Backdrop.load` — the three parts of the work that is left;
* `Cluster.workAt` — the work that is left if a copy that comes in counts `extra` by itself;
* `Cluster.deeds` and `Cluster.effort` — all results, reports and deliveries that there have been,
  and how many moves and deeds are still to come at most.

Main statements: every move makes the work less (`workAt_step?`, `effort_step?`), so nothing moves
for ever (`moves_come_to_an_end`), and settling stops because nobody has a move to make
(`exists_still_turn`).
-/

namespace SeriesExec

open Traffic

/-- How many copies the end of the task may cause. -/
def Task.echoes (x : Task) : Nat :=
  match x.storage? with
  | none => 0
  | some s => if x.broadcasts then s.fragment.master.groupIds.length else 0

/-- How often something has happened to the task that happens to it a limited number of times: it
has got its result, or a parent has reported to it. -/
def Task.deeds (x : Task) : Nat :=
  (if x.result.isSome then 1 else 0) + x.memory?.elim 0 MemoryShape.ready

/-! ## The parts of the work -/

namespace Traffic

/-- The moves that deliveries have before them, each together with the price of its task. -/
def load (price : TaskId → Nat) (τ : Traffic) : Nat :=
  totalOf (fun d => 3 + price d.task) τ.queued + totalOf (fun d => 2 + price d.task) τ.pooled +
    totalOf (fun d => 1 + price d.task) τ.underway

/-- How many loops still look for their engine. -/
def seekers (τ : Traffic) : Nat :=
  τ.units.countP fun l => decide (l.phase = .seeking)

variable {τ τ' : Traffic} (price : TaskId → Nat)

theorem load_of_accepts {new : List Delivery} (h : Accepts τ τ' new) :
    τ'.load price = τ.load price + totalOf (fun d => 3 + price d.task) new := by
  rw [load, load, totalOf_perm _ h.queued, totalOf_perm _ h.pooled, h.underway, totalOf_append]
  omega

/-- A delivery that leaves its queue has one move less before it, at least. -/
theorem load_of_leaves (h : Transfer τ τ' [] none) {d : Delivery}
    (hleaves : τ.queued.Perm (d :: τ'.queued)) : τ'.load price + 1 ≤ τ.load price := by
  have hlength := hleaves.length_eq
  rw [List.length_cons] at hlength
  cases h with
  | accept _ haccepts =>
    -- The queues have become shorter, so this was more than taking nothing.
    have hsame := haccepts.queued.length_eq
    rw [List.append_nil] at hsame
    omega
  | reject e _ hqueued hpooled hunderway _ _ =>
    rw [load, load, totalOf_perm _ hqueued, totalOf_perm _ hpooled, hunderway, totalOf_cons]
    omega
  | submit d hqueued hpooled hunderway _ _ =>
    rw [load, load, totalOf_perm _ hqueued, totalOf_perm _ hpooled, hunderway, totalOf_cons,
      totalOf_cons]
    omega
  | finish _ _ _ hqueued _ _ _ _ _ =>
    have hsame := hqueued.length_eq
    rw [List.append_nil] at hsame
    omega

theorem load_of_start {d : Delivery} (h : Transfer τ τ' [] (some d)) :
    τ'.load price + 1 = τ.load price := by
  cases h with
  | start _ hqueued hpooled hunderway _ _ =>
    rw [load, load, hqueued, totalOf_perm _ hpooled, hunderway, totalOf_append, totalOf_cons,
      totalOf_cons, totalOf_nil]
    omega

theorem seekers_mapUnit_le (τ : Traffic) (u : UnitId) {f : UnitLoop → UnitLoop}
    (hf : ∀ l, (f l).phase = .seeking → l.phase = .seeking) :
    (τ.mapUnit u f).seekers ≤ τ.seekers := by
  rw [seekers, seekers, mapUnit, List.countP_map]
  refine List.countP_mono_left ?_
  intro l _ hl
  by_cases hu : l.id = u
  · simp only [Function.comp_apply, hu, if_true, decide_eq_true_eq] at hl
    exact decide_eq_true (hf l hl)
  · simpa [hu] using hl

/-- A loop that no longer looks for its engine makes one seeker less. -/
theorem seekers_mapUnit_lt {l : UnitLoop} (hl : l ∈ τ.units) (hseeking : l.phase = .seeking)
    {phase : LoopPhase} (hphase : phase ≠ .seeking) :
    (τ.mapUnit l.id fun m => { m with phase := phase }).seekers + 1 ≤ τ.seekers := by
  rcases List.append_of_mem hl with ⟨front, back, hunits⟩
  -- The units on both sides can only become fewer seekers, and `l` is one no more.
  have hside : ∀ ms : List UnitLoop, ({ τ with units := ms }.mapUnit l.id
      fun m => { m with phase := phase }).seekers ≤ ({ τ with units := ms } : Traffic).seekers :=
    fun ms => seekers_mapUnit_le _ l.id fun _ hm => absurd hm hphase
  have hfront := hside front
  have hback := hside back
  simp only [seekers, mapUnit] at hfront hback
  rw [seekers, seekers, mapUnit, hunits, List.map_append, List.map_cons, if_pos rfl,
    List.countP_append, List.countP_append, List.countP_cons_of_neg (by simpa using hphase),
    List.countP_cons_of_pos (by simpa using hseeking)]
  omega

end Traffic

namespace Backdrop

/-- The moves that followers and memory tasks have before them. -/
def load (β : Backdrop) : Nat :=
  3 * β.tasks.countP Task.awaitsParents + 3 * β.memory.queue.size + 2 * β.memory.waiting.size +
    β.memory.running.length

def deeds (β : Backdrop) : Nat :=
  totalOf Task.deeds β.tasks

end Backdrop

namespace Cluster

variable {c c' : Cluster} {extra : Nat}

/-- What the copies that a task may cause count, if each that comes in counts `extra` besides its
three moves. -/
def price (extra : Nat) (c : Cluster) (t : TaskId) : Nat :=
  (3 + extra) * c.copies t

/-- The work that is left, if a copy that comes in counts `extra` besides its own moves. -/
def workAt (extra : Nat) (c : Cluster) : Nat :=
  c.traffic.load (c.price extra) + c.traffic.seekers + c.backdrop.load

theorem work_eq (c : Cluster) : c.work = c.workAt 0 := by
  have hseekers : totalOf (fun l : UnitLoop => if l.phase = .seeking then 1 else 0) c.units =
      c.traffic.seekers := by
    rw [seekers, ← totalOf_ite]
    simp only [decide_eq_true_eq]
    rfl
  simp only [work, workAt, price, Traffic.load, Backdrop.load, deliveryWork, queued, pooled,
    underway, totalOf_add, totalOf_flatMap, hseekers, traffic, backdrop, Nat.add_zero]
  omega

/-! ## Copies -/

theorem copies_eq (c : Cluster) : c.copies = c.trait Task.echoes 0 := by
  funext t
  rw [copies, trait]
  cases c.task? t with
  | none => rfl
  | some x => rfl

theorem echoes_stampUnit (x : Task) (u : UnitId) (isDummy : Bool) :
    (x.stampUnit u isDummy).echoes = x.echoes := by
  rcases x with ⟨operators, isSync, broadcasts, result, span, follower, shape⟩
  cases shape <;> rfl

theorem echoes_countParent (x : Task) : x.countParent.echoes = x.echoes := by
  rcases x with ⟨operators, isSync, broadcasts, result, span, follower, shape⟩
  cases shape <;> rfl

theorem echoes_forgetParents (x : Task) : x.forgetParents.echoes = x.echoes := by
  rcases x with ⟨operators, isSync, broadcasts, result, span, follower, shape⟩
  cases shape <;> rfl

theorem copies_modifyTask (c : Cluster) (t : TaskId) {f : Task → Task}
    (hf : ∀ x, (f x).echoes = x.echoes) : (c.modifyTask t f).copies = c.copies := by
  rw [copies_eq, copies_eq, trait_modifyTask c t hf]

theorem copies_of_backdrop (h : c'.backdrop = c.backdrop) : c'.copies = c.copies := by
  rw [copies_eq, copies_eq, trait_of_backdrop h]

theorem copies_settleTask (c : Cluster) (t : TaskId) (r : TaskResult) :
    (c.settleTask t r).copies = c.copies :=
  settleTask_keeps (fun c t _ => copies_modifyTask c t fun _ => rfl)
    (fun c f => copies_modifyTask c f echoes_countParent) (fun _ _ => rfl) c t r

theorem copies_close (c : Cluster) (r : Run) (elapsed : Duration) :
    (c.close r elapsed).copies = c.copies := by
  change (settleTask _ r.delivery.task r.outcome.result).copies = _
  rw [copies_settleTask, copies_modifyTask _ _ (f := fun x => x.setSpan elapsed) fun _ => rfl,
    copies_of_backdrop (backdrop_observe _ _ _)]
  rfl

/-- A copy causes no copies, so those of a task are no more once it has been copied. -/
theorem copies_broadcast (c : Cluster) (t : TaskId) : (c.broadcast t).copies = c.copies :=
  broadcast_keeps (g := copies) (sendCopy_keeps
    (fun c _ _ => by rw [copies_eq, copies_eq]; exact trait_addTask c rfl)
    fun henqueue => copies_of_backdrop (backdrop_enqueue henqueue)) c t

theorem copies_runMemory? [PatternLibrary] {t : TaskId} {elapsed : Duration}
    (h : c.runMemory? t elapsed = some c') : c'.copies = c.copies :=
  runMemory_keeps (fun c t => copies_modifyTask c t echoes_forgetParents)
    (fun c t _ _ => copies_modifyTask c t fun _ => rfl)
    (fun c f => copies_modifyTask c f echoes_countParent) (fun _ _ => rfl) h

theorem price_congr (h : c'.copies = c.copies) : c'.price extra = c.price extra := by
  funext t
  rw [price, price, h]

/-- A task that is still to be made causes no copies. -/
theorem price_eq_zero {t : TaskId} (h : c.tasks.length ≤ t) : c.price extra t = 0 := by
  rw [price, copies, task?, List.getElem?_eq_none h]
  rfl

/-! ## Tasks and their followers -/

theorem awaitsParents_stampUnit (x : Task) (u : UnitId) (isDummy : Bool) :
    (x.stampUnit u isDummy).awaitsParents = x.awaitsParents := by
  rcases x with ⟨operators, isSync, broadcasts, result, span, follower, shape⟩
  cases shape <;> rfl

theorem awaitsParents_forgetParents (x : Task) :
    x.forgetParents.awaitsParents = x.awaitsParents := by
  rcases x with ⟨operators, isSync, broadcasts, result, span, follower, shape⟩
  cases shape <;> rfl

/-- A report that releases the task was the last that it waited for. -/
theorem awaits_countParent (x : Task) :
    (if x.countParent.awaitsParents then 1 else 0) + (if x.countParent.isReleased then 1 else 0) ≤
      if x.awaitsParents then 1 else 0 := by
  rcases x with ⟨operators, isSync, broadcasts, result, span, follower, shape⟩
  cases shape with
  | memory m =>
    simp only [Task.countParent, Task.awaitsParents, Task.isReleased, decide_eq_true_eq, beq_iff_eq]
    split <;> split <;> split <;> omega
  | _ => exact Nat.le_refl 0

theorem countP_modifyTask {p : Task → Bool} {t : TaskId} {x : Task} (hx : c.task? t = some x)
    (f : Task → Task) :
    (c.modifyTask t f).tasks.countP p + (if p x then 1 else 0) =
      c.tasks.countP p + if p (f x) then 1 else 0 := by
  rw [← totalOf_ite, ← totalOf_ite]
  exact totalOf_modify (fun x => if p x then 1 else 0) hx

theorem modifyTask_of_none {t : TaskId} (ht : c.task? t = none) (f : Task → Task) :
    c.modifyTask t f = c := by
  have htasks : c.tasks.modify t f = c.tasks :=
    List.modify_eq_self (List.getElem?_eq_none_iff.mp ht)
  rw [modifyTask, htasks]

theorem load_modifyTask (c : Cluster) (t : TaskId) {f : Task → Task}
    (hf : ∀ x, (f x).awaitsParents = x.awaitsParents) :
    (c.modifyTask t f).backdrop.load = c.backdrop.load := by
  cases hx : c.task? t with
  | none => rw [modifyTask_of_none hx]
  | some x =>
    have hcount := countP_modifyTask (p := Task.awaitsParents) hx f
    rw [hf] at hcount
    have hsame : (c.modifyTask t f).tasks.countP Task.awaitsParents =
        c.tasks.countP Task.awaitsParents := Nat.add_right_cancel hcount
    rw [Backdrop.load, Backdrop.load]
    change 3 * (c.modifyTask t f).tasks.countP _ + _ + _ + _ = _
    rw [hsame]
    rfl

theorem awaiting_report (c : Cluster) (f : TaskId) :
    (c.report f).1.tasks.countP Task.awaitsParents + (if (c.report f).2 then 1 else 0) ≤
      c.tasks.countP Task.awaitsParents := by
  have hcounted : (c.report f).1 = c.modifyTask f Task.countParent := rfl
  have hreleased : (c.report f).2 =
      ((c.modifyTask f Task.countParent).task? f).any Task.isReleased := rfl
  rw [hcounted, hreleased, task?_modifyTask, if_pos rfl]
  cases hx : c.task? f with
  | none =>
    rw [modifyTask_of_none hx]
    exact Nat.le_refl _
  | some x =>
    have hcount := countP_modifyTask (p := Task.awaitsParents) hx Task.countParent
    have hwaits := awaits_countParent x
    rw [Option.map_some, Option.any_some]
    omega

/-- A follower that is released has its three moves before it, but waits no longer. -/
theorem load_release (c : Cluster) (t : TaskId) :
    (c.release t).1.backdrop.load + 3 * (c.release t).2.toList.length ≤ c.backdrop.load := by
  unfold release
  split
  · exact Nat.le_refl _
  · rename_i f _
    have hawaiting := awaiting_report c f
    have hmemory : (c.report f).1.memory = c.memory := rfl
    simp only [Backdrop.load, backdrop, hmemory]
    -- Whether it is released or not, `hawaiting` pays for what comes to the memory stage.
    cases hreleased : (c.report f).2 with
    | true =>
      rw [hreleased, if_pos rfl] at hawaiting
      rw [if_pos rfl, Option.toList_some, List.length_singleton]
      omega
    | false =>
      rw [if_neg Bool.false_ne_true, Option.toList_none, List.length_nil]
      omega

theorem load_settleTask (c : Cluster) (t : TaskId) (r : TaskResult) :
    (c.settleTask t r).backdrop.load ≤ c.backdrop.load := by
  have hresult : (c.modifyTask t fun x => x.setResult r).backdrop.load = c.backdrop.load :=
    load_modifyTask c t fun _ => rfl
  have hrelease := load_release (c.modifyTask t fun x => x.setResult r) t
  unfold settleTask
  dsimp only
  split
  · split <;> rename_i hpair <;> rw [hpair] at hrelease
    · rename_i c₂ f
      have hadd : (c₂.addMemory f).backdrop.load = c₂.backdrop.load + 3 := by
        simp only [Backdrop.load, backdrop, addMemory, Queue.push, Queue.size, List.length_append,
          List.length_singleton]
        omega
      rw [hadd, ← hresult]
      exact hrelease
    · rw [← hresult]
      exact hrelease
  · exact Nat.le_of_eq hresult

theorem load_runMemory? [PatternLibrary] {t : TaskId} {elapsed : Duration}
    (h : c.runMemory? t elapsed = some c') : c'.backdrop.load + 1 ≤ c.backdrop.load := by
  rcases chain_of_runMemory? h with ⟨hrunning, c₂, released, hpair, rfl⟩
  have hran : (c.runStaged t elapsed).backdrop.load = c.backdrop.load := by
    have hexecuted : (c.executeMemory t).1.backdrop.load = c.backdrop.load := by
      unfold executeMemory
      split
      · rfl
      · exact load_modifyTask c t awaitsParents_forgetParents
    rw [runStaged, load_modifyTask _ t
      (f := fun x => (x.setSpan elapsed).setResult (c.executeMemory t).2) fun _ => rfl, hexecuted]
  have hmemory : c₂.memory = c.memory := by
    have hrelease := memory_release (c.runStaged t elapsed) t
    rw [hpair] at hrelease
    exact hrelease.trans (memory_runStaged c t elapsed)
  have hrelease := load_release (c.runStaged t elapsed) t
  rw [hpair, hran] at hrelease
  have herase := List.length_erase_of_mem (hmemory ▸ hrunning : t ∈ c₂.memory.running)
  have hpos := List.length_pos_of_mem (hmemory ▸ hrunning : t ∈ c₂.memory.running)
  -- The worker has one task less, or goes on with the follower, which need not be admitted then.
  simp only [Backdrop.load, backdrop, List.length_append, herase] at hrelease ⊢
  omega

/-! ## Copies that come in -/

theorem load_sendCopy (h : c.traffic.Orderly) {price : TaskId → Nat}
    (hprice : ∀ t, c.tasks.length ≤ t → price t = 0) (task : Task) (fragment : Fragment)
    (u : UnitId) :
    ∃ n ≤ 1, (sendCopy task fragment c u).accepted = c.accepted + n ∧
      (sendCopy task fragment c u).traffic.load price = c.traffic.load price + 3 * n ∧
      c.tasks.length ≤ (sendCopy task fragment c u).tasks.length := by
  unfold sendCopy
  dsimp only
  split
  · rename_i c₁ henqueue
    have haccepts := accepts_enqueue (c := (c.addTask _).1) h henqueue
    have hload := load_of_accepts price haccepts
    -- The copy is a new task, which has no price.
    have hfree : price (c.addTask (Task.replicaCopy task.operators fragment)).2 = 0 :=
      hprice _ (Nat.le_refl _)
    rw [totalOf_cons, totalOf_nil, hfree] at hload
    have htasks : c₁.tasks = (c.addTask (Task.replicaCopy task.operators fragment)).1.tasks :=
      congrArg Backdrop.tasks (backdrop_enqueue henqueue)
    refine ⟨1, Nat.le_refl 1, haccepts.accepted, hload, ?_⟩
    rw [htasks, addTask, List.length_append]
    exact Nat.le_add_right _ _
  · exact ⟨0, Nat.zero_le 1, rfl, rfl, Nat.le_refl _⟩

theorem load_foldl_sendCopy (h : c.traffic.Orderly) {price : TaskId → Nat}
    (hprice : ∀ t, c.tasks.length ≤ t → price t = 0) (task : Task) (fragment : Fragment)
    (us : List UnitId) :
    ∃ n ≤ us.length, (us.foldl (sendCopy task fragment) c).accepted = c.accepted + n ∧
      (us.foldl (sendCopy task fragment) c).traffic.load price = c.traffic.load price + 3 * n := by
  induction us generalizing c with
  | nil => exact ⟨0, Nat.le_refl 0, rfl, rfl⟩
  | cons u rest ih =>
    rcases load_sendCopy h hprice task fragment u with ⟨m, hm, haccepted, hload, hlength⟩
    rcases accepts_sendCopy h task fragment u with ⟨_, haccepts, _⟩
    rcases ih haccepts.orderly fun t ht => hprice t (Nat.le_trans hlength ht) with
      ⟨n, hn, haccepted', hload'⟩
    rw [List.foldl_cons, List.length_cons]
    exact ⟨m + n, by omega, by omega, by omega⟩

/-- The copies of a task are as many as it may cause at most, and each has three moves before it. -/
theorem load_broadcast (h : c.traffic.Orderly) {price : TaskId → Nat}
    (hprice : ∀ t, c.tasks.length ≤ t → price t = 0) {t : TaskId}
    (ht : (c.task? t).any Task.broadcasts) :
    ∃ n ≤ c.copies t, (c.broadcast t).accepted = c.accepted + n ∧
      (c.broadcast t).traffic.load price = c.traffic.load price + 3 * n := by
  cases hx : c.task? t with
  | none => simp [hx] at ht
  | some x =>
    rw [hx, Option.any_some] at ht
    cases hs : x.storage? with
    | none =>
      have hsame : c.broadcast t = c := by simp only [broadcast, hx, hs]
      rw [hsame]
      exact ⟨0, Nat.zero_le _, rfl, rfl⟩
    | some s =>
      have hsent : c.broadcast t = (copyTargets s).foldl (sendCopy x s.fragment) c := by
        simp only [broadcast, hx, hs]
      have hcopies : c.copies t = s.fragment.master.groupIds.length := by
        simp only [copies, hx, hs, ht, if_true]
      rcases load_foldl_sendCopy h hprice x s.fragment (copyTargets s) with ⟨n, hn, hcame⟩
      rw [hsent, hcopies]
      exact ⟨n, Nat.le_trans hn (List.length_filter_le _ _), hcame⟩

theorem seekers_broadcast (c : Cluster) (t : TaskId) :
    (c.broadcast t).traffic.seekers = c.traffic.seekers := by
  have henqueue : ∀ {c c' : Cluster} {u : UnitId} {t : TaskId}, c.enqueue u t = .ok c' →
      c'.traffic.seekers = c.traffic.seekers := by
    intro c c' u t h
    unfold enqueue at h
    split at h
    · cases h
    · rcases Except.ok.inj h with rfl
      rw [seekers, seekers, traffic, traffic, modifyUnit, List.countP_map]
      congr 1
      funext l
      by_cases hu : l.id = u <;> simp [hu]
  exact broadcast_keeps (g := fun c => c.traffic.seekers)
    (sendCopy_keeps (fun _ _ _ => rfl) henqueue) c t

theorem load_close (h : c.Sound) {r : Run} (hr : r ∈ c.running) (elapsed : Duration)
    (price : TaskId → Nat) :
    (c.close r elapsed).traffic.load price + 1 + price r.delivery.task = c.traffic.load price := by
  have hunderway := totalOf_perm (fun d => 1 + price d.task)
    (underway_perm_of_mem (τ := c.traffic) h.underway_nodup hr)
  rw [totalOf_cons] at hunderway
  rw [traffic_close, load, load, hunderway]
  simp only [underway, queued, pooled, traffic]
  omega

theorem load_backdrop_close (c : Cluster) (r : Run) (elapsed : Duration) :
    (c.close r elapsed).backdrop.load ≤ c.backdrop.load := by
  refine Nat.le_trans (load_settleTask _ r.delivery.task r.outcome.result) (Nat.le_of_eq ?_)
  rw [load_modifyTask _ _ (f := fun x => x.setSpan elapsed) fun _ => rfl, backdrop_observe]
  rfl

theorem load_backdrop_broadcast (c : Cluster) (t : TaskId) :
    (c.broadcast t).backdrop.load = c.backdrop.load := by
  have hmake : ∀ (c : Cluster) (operators : List Operator) (fragment : Fragment),
      (c.addTask (Task.replicaCopy operators fragment)).1.backdrop.load = c.backdrop.load := by
    intro c operators fragment
    simp only [Backdrop.load, backdrop, addTask, List.countP_append, List.countP_singleton]
    rfl
  exact broadcast_keeps (g := fun c => c.backdrop.load)
    (sendCopy_keeps hmake fun henqueue => congrArg Backdrop.load (backdrop_enqueue henqueue)) c t

/-! ## One move -/

theorem seekers_of_dispatch {l : UnitLoop} {d : Delivery} {rest : List Delivery}
    (h : c.Dispatch l d rest c') : c'.traffic.seekers ≤ c.traffic.seekers := by
  have htaken : (c.takeFirst l d rest).traffic.seekers ≤ c.traffic.seekers :=
    seekers_mapUnit_le c.traffic l.id fun _ hm => hm
  have hserved : ((c.takeFirst l d rest).serve l).traffic.seekers ≤ c.traffic.seekers :=
    Nat.le_trans (seekers_mapUnit_le (c.takeFirst l d rest).traffic l.id
      (f := fun m => { m with phase := .serving }) fun _ hm => nomatch hm) htaken
  cases h with
  | notReady _ => rwa [traffic_reject]
  | overloaded _ _ _ => rwa [traffic_reject]
  | submitted _ _ _ => exact hserved

theorem load_backdrop_of_dispatch {l : UnitLoop} {d : Delivery} {rest : List Delivery}
    (h : c.Dispatch l d rest c') : c'.backdrop.load ≤ c.backdrop.load := by
  have htaken : (c.takeFirst l d rest).backdrop.load = c.backdrop.load :=
    load_modifyTask _ d.task fun x => awaitsParents_stampUnit x l.id l.isDummy
  rw [← htaken]
  cases h with
  | notReady _ => exact load_settleTask (c.takeFirst l d rest) d.task _
  | overloaded _ _ _ => exact load_settleTask ((c.takeFirst l d rest).serve l) d.task _
  | submitted _ _ _ => exact Nat.le_refl _

theorem copies_of_dispatch {l : UnitLoop} {d : Delivery} {rest : List Delivery}
    (h : c.Dispatch l d rest c') : c'.copies = c.copies := by
  have htaken : (c.takeFirst l d rest).copies = c.copies :=
    copies_modifyTask _ d.task fun x => echoes_stampUnit x l.id l.isDummy
  rw [← htaken]
  cases h with
  | notReady _ => exact copies_settleTask (c.takeFirst l d rest) d.task _
  | overloaded _ _ _ => exact copies_settleTask ((c.takeFirst l d rest).serve l) d.task _
  | submitted _ _ _ => rfl

/-- A loop stops looking for its engine. -/
theorem workAt_turn (h : c.Sound) {l : UnitLoop} (hl : l ∈ c.units)
    (hseeking : l.phase = .seeking) {phase : LoopPhase} (hphase : phase ≠ .seeking) :
    (c.modifyUnit l.id fun l => { l with phase := phase }).workAt extra + 1 ≤ c.workAt extra := by
  let turned := c.modifyUnit l.id fun l => { l with phase := phase }
  have haccepts : Accepts c.traffic turned.traffic [] :=
    Accepts.mapUnit h.orderly hl (fun _ => rfl) (fun _ => rfl) fun _ => rfl
  have hload := load_of_accepts (c.price extra) haccepts
  have hseekers : turned.traffic.seekers + 1 ≤ c.traffic.seekers :=
    seekers_mapUnit_lt (τ := c.traffic) hl hseeking hphase
  have hbackdrop : turned.backdrop = c.backdrop := rfl
  have hprice : turned.price extra = c.price extra := price_congr (copies_of_backdrop hbackdrop)
  rw [totalOf_nil, Nat.add_zero] at hload
  change turned.workAt extra + 1 ≤ _
  rw [workAt, workAt, hprice, hload, hbackdrop]
  omega

theorem workAt_completion (h : c.Sound) {r : Run} {elapsed : Duration}
    (hc : c.Completion r elapsed c') :
    c'.workAt extra + 1 + extra * c'.accepted ≤ c.workAt extra + extra * c.accepted := by
  have hr : r ∈ c.running := List.mem_of_find?_eq_some hc.found
  have hload := load_close h hr elapsed (c.price extra)
  have hseekers : (c.close r elapsed).traffic.seekers = c.traffic.seekers := by
    rw [traffic_close]
    rfl
  have hbackdrop := load_backdrop_close c r elapsed
  have haccepted : (c.close r elapsed).accepted = c.accepted :=
    congrArg Traffic.accepted (traffic_close c r elapsed)
  have hcopies := copies_close c r elapsed
  have hprice : (c.close r elapsed).price extra = c.price extra := price_congr hcopies
  rw [hc.after]
  split
  · rename_i hsent
    have hfree : ∀ t, (c.close r elapsed).tasks.length ≤ t → c.price extra t = 0 :=
      fun t ht => hprice ▸ price_eq_zero ht
    obtain ⟨n, hn, hcame, hcost⟩ := load_broadcast (orderly_close h.orderly r elapsed) hfree
      (Bool.and_eq_true_iff.mp hsent).1
    -- What the copies cost has been in the price of their task before.
    have hpaid : 3 * n + extra * n ≤ c.price extra r.delivery.task := by
      rw [price, ← Nat.add_mul]
      exact Nat.mul_le_mul_left _ (hcopies ▸ hn)
    rw [workAt, workAt, price_congr (copies_broadcast _ _), hprice, seekers_broadcast,
      load_backdrop_broadcast, hcame, haccepted, hcost, hseekers, Nat.mul_add]
    omega
  · rw [workAt, workAt, haccepted, hprice, hseekers]
    omega

/-- A move that brings nothing in and makes the work less. -/
theorem workAt_of_less (haccepted : c'.accepted = c.accepted)
    (h : c'.workAt extra + 1 ≤ c.workAt extra) :
    c'.workAt extra + 1 + extra * c'.accepted ≤ c.workAt extra + extra * c.accepted := by
  rw [haccepted]
  exact Nat.add_le_add_right h _

/-- Every move makes the work less, also if the copies that it brings in count by themselves. -/
theorem workAt_step? [PatternLibrary] (extra : Nat) (h : c.Sound) {s : Step}
    (hstep : c.step? s = some c') :
    c'.workAt extra + 1 + extra * c'.accepted ≤ c.workAt extra + extra * c.accepted := by
  -- A loop that is resolved or resigned is no seeker any more; a delivery comes nearer to its end
  -- and pays for the copies that it may be split into; a staged task comes nearer to its run.
  cases s with
  | resolve u =>
    rcases serve_of_resolve? hstep with ⟨l, hl, _, ⟨hseeking, _⟩, rfl⟩
    exact workAt_of_less rfl (workAt_turn h hl hseeking (by simp))
  | giveUp u =>
    rcases resign_of_giveUp? hstep with ⟨l, hl, _, ⟨hseeking, _⟩, rfl⟩
    exact workAt_of_less rfl (workAt_turn h hl hseeking (by simp))
  | dispatch u =>
    obtain ⟨l, d, rest, hl, _, _, hitems, hdispatch⟩ := dispatch_of_dispatch? hstep
    obtain ⟨_, htransfer, hleaves⟩ :=
      orderly_transfer_of_dispatch h.orderly (id_of_unit? hl ▸ hl) hitems hdispatch
    have hload := load_of_leaves (c.price extra) htransfer hleaves
    have hseekers := seekers_of_dispatch hdispatch
    have hbackdrop := load_backdrop_of_dispatch hdispatch
    refine workAt_of_less htransfer.new_numbered.2 ?_
    rw [workAt, workAt, price_congr (copies_of_dispatch hdispatch)]
    omega
  | start e =>
    rcases start_of_start? h.orderly hstep with ⟨s, d, rest, _, hstart⟩
    have htransfer := (orderly_transfer_of_start h.orderly hstart).2
    have hload := load_of_start (c.price extra) htransfer
    have hseekers : c'.traffic.seekers = c.traffic.seekers := by
      rcases hstart.traffic with ⟨driver, outcome, isHeld, htraffic⟩
      rw [htraffic]
      rfl
    refine workAt_of_less htransfer.new_numbered.2 ?_
    rw [workAt, workAt, price_congr (copies_of_backdrop hstart.backdrop), hstart.backdrop, hseekers]
    omega
  | complete d elapsed =>
    rcases completion_of_complete? hstep with ⟨r, _, hcompletion⟩
    exact workAt_completion h hcompletion
  | admitMemory =>
    rcases admitted_of_admitMemory? hstep with ⟨t, rest, _, hqueue, rfl⟩
    have hbackdrop : Backdrop.load { c.backdrop with memory :=
        { c.memory with queue := ⟨rest⟩, waiting := c.memory.waiting.push t } } + 1 ≤
          c.backdrop.load := by
      simp only [Backdrop.load, backdrop, Queue.size, Queue.push, hqueue, List.length_append,
        List.length_cons, List.length_nil]
      omega
    exact workAt_of_less rfl (Nat.add_le_add_left hbackdrop _)
  | startMemory =>
    rcases started_of_startMemory? hstep with ⟨t, rest, _, hwaiting, rfl⟩
    have hbackdrop : Backdrop.load { c.backdrop with memory :=
        { c.memory with waiting := ⟨rest⟩, running := c.memory.running ++ [t] } } + 1 ≤
          c.backdrop.load := by
      simp only [Backdrop.load, backdrop, Queue.size, hwaiting, List.length_append,
        List.length_cons, List.length_nil]
      omega
    exact workAt_of_less rfl (Nat.add_le_add_left hbackdrop _)
  | runMemory t elapsed =>
    have htraffic := traffic_runMemory? hstep
    have hbackdrop := load_runMemory? hstep
    refine workAt_of_less (congrArg Traffic.accepted htraffic) ?_
    rw [workAt, workAt, htraffic, price_congr (copies_runMemory? hstep)]
    omega

/-! ## What a move does to tasks -/

/-- All results, reports of parents, and deliveries that there have been. -/
def deeds (c : Cluster) : Nat :=
  c.backdrop.deeds + c.accepted

/-- How many moves and deeds are still to come at most: with a move come two deeds, and deliveries
that count by themselves. -/
def effort (c : Cluster) : Nat :=
  3 * c.workAt 1

theorem deeds_modifyTask_le (c : Cluster) (t : TaskId) {f : Task → Task} {n : Nat}
    (hf : ∀ x, (f x).deeds ≤ x.deeds + n) :
    (c.modifyTask t f).backdrop.deeds ≤ c.backdrop.deeds + n := by
  cases hx : c.task? t with
  | none =>
    rw [modifyTask_of_none hx]
    exact Nat.le_add_right _ _
  | some x =>
    have htotal : (c.modifyTask t f).backdrop.deeds + x.deeds = c.backdrop.deeds + (f x).deeds :=
      totalOf_modify Task.deeds hx
    have hone := hf x
    omega

theorem deeds_setResult (x : Task) (r : TaskResult) : (x.setResult r).deeds ≤ x.deeds + 1 := by
  rcases x with ⟨operators, isSync, broadcasts, result, span, follower, shape⟩
  cases result with
  | none => exact Nat.le_of_eq (by simp [Task.setResult, Task.deeds, Task.memory?, Nat.add_comm])
  | some _ => exact Nat.le_succ _

theorem deeds_countParent (x : Task) : x.countParent.deeds ≤ x.deeds + 1 := by
  rcases x with ⟨operators, isSync, broadcasts, result, span, follower, shape⟩
  cases shape with
  | memory m => exact Nat.le_refl _
  | _ => exact Nat.le_succ _

theorem deeds_forgetParents (x : Task) : x.forgetParents.deeds = x.deeds := by
  rcases x with ⟨operators, isSync, broadcasts, result, span, follower, shape⟩
  cases shape <;> rfl

theorem deeds_stampUnit (x : Task) (u : UnitId) (isDummy : Bool) :
    (x.stampUnit u isDummy).deeds = x.deeds := by
  rcases x with ⟨operators, isSync, broadcasts, result, span, follower, shape⟩
  cases shape <;> rfl

theorem deeds_release (c : Cluster) (t : TaskId) :
    (c.release t).1.backdrop.deeds ≤ c.backdrop.deeds + 1 := by
  unfold release
  split
  · exact Nat.le_succ _
  · exact deeds_modifyTask_le c _ deeds_countParent

/-- A task that gets its result may report that to its follower. -/
theorem deeds_settleTask (c : Cluster) (t : TaskId) (r : TaskResult) :
    (c.settleTask t r).backdrop.deeds ≤ c.backdrop.deeds + 2 := by
  have hresult : (c.modifyTask t fun x => x.setResult r).backdrop.deeds ≤ c.backdrop.deeds + 1 :=
    deeds_modifyTask_le c t fun x => deeds_setResult x r
  have hrelease := deeds_release (c.modifyTask t fun x => x.setResult r) t
  unfold settleTask
  dsimp only
  split
  · split <;> rename_i hpair <;> rw [hpair] at hrelease <;>
      exact Nat.le_trans hrelease (Nat.succ_le_succ hresult)
  · exact Nat.le_succ_of_le hresult

theorem deeds_of_dispatch {l : UnitLoop} {d : Delivery} {rest : List Delivery}
    (h : c.Dispatch l d rest c') : c'.backdrop.deeds ≤ c.backdrop.deeds + 2 := by
  have htaken : (c.takeFirst l d rest).backdrop.deeds ≤ c.backdrop.deeds + 0 :=
    deeds_modifyTask_le _ d.task fun x => Nat.le_of_eq (deeds_stampUnit x l.id l.isDummy)
  refine Nat.le_trans ?_ (Nat.add_le_add_right htaken 2)
  cases h with
  | notReady _ => exact deeds_settleTask (c.takeFirst l d rest) d.task _
  | overloaded _ _ _ => exact deeds_settleTask ((c.takeFirst l d rest).serve l) d.task _
  | submitted _ _ _ => exact Nat.le_add_right _ _

theorem deeds_close (c : Cluster) (r : Run) (elapsed : Duration) :
    (c.close r elapsed).backdrop.deeds ≤ c.backdrop.deeds + 2 := by
  let freed := { c with running := c.running.filter fun q => q.delivery.id != r.delivery.id }
  have hmarked : ((freed.observe r.delivery.task elapsed).modifyTask r.delivery.task
      fun x => x.setSpan elapsed).backdrop.deeds ≤ c.backdrop.deeds + 0 := by
    refine Nat.le_trans (deeds_modifyTask_le _ _ (f := fun x => x.setSpan elapsed) (n := 0)
      fun _ => Nat.le_refl _) (Nat.le_of_eq ?_)
    rw [backdrop_observe]
    rfl
  exact Nat.le_trans (deeds_settleTask _ r.delivery.task r.outcome.result)
    (Nat.add_le_add_right hmarked 2)

theorem deeds_broadcast (c : Cluster) (t : TaskId) :
    (c.broadcast t).backdrop.deeds = c.backdrop.deeds := by
  have hmake : ∀ (c : Cluster) (operators : List Operator) (fragment : Fragment),
      (c.addTask (Task.replicaCopy operators fragment)).1.backdrop.deeds = c.backdrop.deeds :=
    fun c operators fragment => totalOf_append Task.deeds c.tasks _
  exact broadcast_keeps (g := fun c => c.backdrop.deeds)
    (sendCopy_keeps hmake fun henqueue => congrArg Backdrop.deeds (backdrop_enqueue henqueue)) c t

section

variable [PatternLibrary]

theorem deeds_runMemory? {t : TaskId} {elapsed : Duration} (h : c.runMemory? t elapsed = some c') :
    c'.backdrop.deeds ≤ c.backdrop.deeds + 2 := by
  rcases chain_of_runMemory? h with ⟨_, c₂, released, hpair, rfl⟩
  have hexecuted : (c.executeMemory t).1.backdrop.deeds ≤ c.backdrop.deeds + 0 := by
    unfold executeMemory
    split
    · exact Nat.le_refl _
    · exact deeds_modifyTask_le c t fun x => Nat.le_of_eq (deeds_forgetParents x)
  have hran : (c.runStaged t elapsed).backdrop.deeds ≤ c.backdrop.deeds + 1 :=
    Nat.le_trans
      (deeds_modifyTask_le _ t fun x => deeds_setResult (x.setSpan elapsed) (c.executeMemory t).2)
      (Nat.succ_le_succ hexecuted)
  have hrelease := deeds_release (c.runStaged t elapsed) t
  rw [hpair] at hrelease
  exact Nat.le_trans hrelease (Nat.succ_le_succ hran)

/-- One task gets its result with a move, and one parent reports to its follower, at most. -/
theorem deeds_step? {s : Step} (hstep : c.step? s = some c') :
    c'.backdrop.deeds ≤ c.backdrop.deeds + 2 := by
  cases s with
  | resolve u =>
    rcases serve_of_resolve? hstep with ⟨l, _, _, _, rfl⟩
    exact Nat.le_add_right _ _
  | giveUp u =>
    rcases resign_of_giveUp? hstep with ⟨l, _, _, _, rfl⟩
    exact Nat.le_add_right _ _
  | dispatch u =>
    obtain ⟨l, d, rest, _, _, _, _, hdispatch⟩ := dispatch_of_dispatch? hstep
    exact deeds_of_dispatch hdispatch
  | start e =>
    rw [backdrop_start? hstep]
    exact Nat.le_add_right _ _
  | complete d elapsed =>
    rcases completion_of_complete? hstep with ⟨r, _, hcompletion⟩
    rw [hcompletion.after]
    split
    · rw [deeds_broadcast]
      exact deeds_close c r elapsed
    · exact deeds_close c r elapsed
  | admitMemory =>
    rcases admitted_of_admitMemory? hstep with ⟨t, rest, _, _, rfl⟩
    exact Nat.le_add_right _ _
  | startMemory =>
    rcases started_of_startMemory? hstep with ⟨t, rest, _, _, rfl⟩
    exact Nat.le_add_right _ _
  | runMemory t elapsed => exact deeds_runMemory? hstep

/-! ## Rows of moves -/

theorem work_step? (h : c.Sound) {s : Step} (hstep : c.step? s = some c') :
    c'.work + 1 ≤ c.work := by
  have hless := workAt_step? 0 h hstep
  rw [work_eq, work_eq]
  omega

/-- A move, and all deeds that come with it, are paid for out of the effort. -/
theorem effort_step? (h : c.Sound) {s : Step} (hstep : c.step? s = some c') :
    1 + c'.deeds + c'.effort ≤ c.deeds + c.effort := by
  have hless := workAt_step? 1 h hstep
  have hdeeds := deeds_step? hstep
  obtain ⟨new, _, htransfer, _⟩ := orderly_transfer_of_step? h hstep
  have haccepted : c'.accepted = c.accepted + new.length := htransfer.new_numbered.2
  rw [deeds, deeds, effort, effort]
  omega

theorem length_add_work_le (h : c.Sound) {moves : List Step}
    (hrun : c.run? (moves.map .moved) = some c') : moves.length + c'.work ≤ c.work := by
  induction moves generalizing c with
  | nil =>
    rcases Option.some.inj hrun with rfl
    exact Nat.le_of_eq (Nat.zero_add _)
  | cons s rest ih =>
    rcases Option.bind_eq_some_iff.mp hrun with ⟨c₁, hstep, hrest⟩
    have hless := work_step? h hstep
    have hle := ih (h.after? (e := .moved s) hstep) hrest
    rw [List.length_cons]
    omega

theorem length_add_effort_le (h : c.Sound) {moves : List Step}
    (hrun : c.run? (moves.map .moved) = some c') :
    moves.length + c'.deeds + c'.effort ≤ c.deeds + c.effort := by
  induction moves generalizing c with
  | nil =>
    rcases Option.some.inj hrun with rfl
    exact Nat.le_of_eq (congrArg (· + _) (Nat.zero_add _))
  | cons s rest ih =>
    rcases Option.bind_eq_some_iff.mp hrun with ⟨c₁, hstep, hrest⟩
    have hless := effort_step? h hstep
    have hle := ih (h.after? (e := .moved s) hstep) hrest
    rw [List.length_cons]
    omega

/-- Whoever goes on moving gets to a cluster in which nothing moves. -/
theorem exists_settled (h : c.Sound) :
    ∃ (moves : List Step) (c' : Cluster), c.run? (moves.map .moved) = some c' ∧ c'.IsSettled := by
  induction hwork : c.work using Nat.strongRecOn generalizing c with
  | ind work ih =>
    by_cases hsettled : c.IsSettled
    · exact ⟨[], c, rfl, hsettled⟩
    · rcases not_forall.mp hsettled with ⟨s, hs⟩
      rcases Option.ne_none_iff_exists'.mp hs with ⟨c₁, hstep⟩
      have hless := work_step? h hstep
      have hsound : c₁.Sound := h.after? (e := .moved s) hstep
      rcases ih c₁.work (by omega) hsound rfl with ⟨moves, c', hrun, hsettled⟩
      refine ⟨s :: moves, c', ?_, hsettled⟩
      rw [List.map_cons, run?, after?, hstep, Option.bind_some, hrun]

/-- From every cluster that a history leads to every move makes the work less.  So the moves of a
row are no more than the work, and the moves of a row together with the results, reports and copies
that they bring are no more than the effort; nothing moves for ever, and every row of moves can be
continued until nothing can move. -/
theorem moves_come_to_an_end (s : Setup) {events : List Event} {c : Cluster}
    (hrun : (build s).run? events = some c) :
    (∀ move c', c.step? move = some c' → c'.work < c.work) ∧
    (∀ (moves : List Step) c', c.run? (moves.map .moved) = some c' →
      moves.length + c'.work ≤ c.work ∧
      moves.length + c'.deeds + c'.effort ≤ c.deeds + c.effort ∧
      ∃ (more : List Step) (c'' : Cluster),
        c'.run? (more.map .moved) = some c'' ∧ c''.IsSettled) ∧
    ¬ ∃ path : Nat → Cluster, path 0 = c ∧
      ∀ n, ∃ move, (path n).step? move = some (path (n + 1)) := by
  have hsound : c.Sound := (sound_build s).run? hrun
  refine ⟨fun move c' hstep => work_step? hsound hstep, ?_, ?_⟩
  · intro moves c' hmoves
    exact ⟨length_add_work_le hsound hmoves, length_add_effort_le hsound hmoves,
      exists_settled (hsound.run? hmoves)⟩
  · rintro ⟨path, rfl, hpath⟩
    -- The work of a path without an end would have to fall below nothing.
    have hfalls : ∀ n, (path n).Sound ∧ n + (path n).work ≤ (path 0).work := by
      intro n
      induction n with
      | zero => exact ⟨hsound, Nat.le_of_eq (Nat.zero_add _)⟩
      | succ n ih =>
        rcases hpath n with ⟨move, hstep⟩
        have hless := work_step? ih.1 hstep
        exact ⟨ih.1.after? (e := .moved move) hstep, by omega⟩
    have hlate := (hfalls ((path 0).work + 1)).2
    omega

end

/-- The end of a task that broadcasts in a group of three causes eleven moves at most. -/
theorem moves_come_to_an_end_sample : ∃ c, (build groupSetup).run? groupEvents = some c ∧
    ∀ (moves : List Step) c', c.run? (moves.map .moved) = some c' → moves.length ≤ 11 := by
  obtain ⟨c, hrun, hwork⟩ : ∃ c ∈ (build groupSetup).run? groupEvents, c.work = 11 := by decide
  refine ⟨c, hrun, fun moves c' hmoves => ?_⟩
  have hall := (moves_come_to_an_end groupSetup hrun).2.1 moves c' hmoves
  exact hwork ▸ Nat.le_trans (Nat.le_add_right _ _) hall.1

/-! ## Settling -/

variable [PatternLibrary]

theorem Turn.exists_still_of_work_le {n : Nat} {t : Turn} (h : t.cluster.Sound)
    (hn : t.cluster.work ≤ n) : ∃ t' : Turn, t'.cluster = Turn.run n t ∧ t'.next? = none := by
  induction n generalizing t with
  | zero =>
    refine ⟨t, rfl, ?_⟩
    -- Without work there is no move.
    cases hnext : t.next? with
    | none => rfl
    | some t' =>
      rcases exists_step?_of_next? hnext with ⟨s, hstep⟩
      have hless := work_step? h hstep
      omega
  | succ n ih =>
    unfold Turn.run
    split
    · rename_i t' hnext
      rcases exists_step?_of_next? hnext with ⟨s, hstep⟩
      have hless := work_step? h hstep
      exact ih (h.after? (e := .moved s) hstep) (by omega)
    · rename_i hnone
      exact ⟨t, rfl, hnone⟩

/-- Settling does not stop before nobody has a move to make. -/
theorem exists_still_turn (h : c.Sound) : ∃ t : Turn, t.cluster = c.settle ∧ t.next? = none :=
  Turn.exists_still_of_work_le (t := ⟨c, c.actors⟩) h (Nat.le_refl _)

end Cluster
end SeriesExec
