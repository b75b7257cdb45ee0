import Mathlib.Data.List.Basic
import SeriesExec.Proofs.Conservation
import SeriesExec.Proofs.Followers

/-!
# Pauses — the memory loop switched off and on

The loop of the memory stage can be switched off and on again, while tasks keep being added.  What
is added while it is off stays in its queue, and the next loop takes it from there.  A memory task
that fails, for whatever reason, ends with an error like any other, so no end is lost.  This file
defines, in the namespace `Cluster`:

* `Cluster.Staging` — what an event does to the memory stage while no storage task ends;
* `Cluster.starts` — the tasks that workers take from the line, in this order;
* `Cluster.backlog` — the tasks that were added since the loop was switched off;
* `Cluster.MemoryHistory` — tasks without parents are added once each, and the loop is switched off
  only when it has nothing to do.

Main statements: tasks start in the order in which they were added (`line_of_run?`), while the loop
is off exactly the tasks added since are held back (`held_of_run?`), and no task is lost or run
twice (`pauses_lose_nothing`).
-/

namespace SeriesExec

open Traffic Roster

/-! ## Tasks without parents -/

namespace Roster

variable [PatternLibrary] {ρ ρ₁ ρ' : Roster} {t : TaskId}

/-- A task that is never released is staged or has run as often as it was added from outside, even
if somebody tells it about parents by hand. -/
theorem Change.balance_of_credit {l : Label} (h : Change ρ ρ' l) (hcredit : ρ'.credit t = 0) :
    ρ'.staged.count t + l.ran?.toList.count t =
      ρ.staged.count t + l.added?.toList.count t := by
  have hbefore : ρ.credit t = 0 := Nat.le_zero.mp (hcredit ▸ h.later.credit_le t)
  by_cases hhand : l = .byHand
  · subst hhand
    cases h with
    | byHand i g _ _ _ h =>
      rw [h]
      rfl
  · have hbalance := h.balance hhand t
    rwa [hbefore, hcredit, Nat.add_zero, Nat.add_zero] at hbalance

theorem Changes.balance_of_credit {ls : List Label} (h : Changes ρ ρ' ls)
    (hcredit : ρ'.credit t = 0) :
    ρ'.staged.count t + (ls.filterMap Label.ran?).count t =
      ρ.staged.count t + (ls.filterMap Label.added?).count t := by
  induction h with
  | nil => rfl
  | cons first rest ih =>
    rename_i ρ ρ₁ ρ' l ls
    have hbetween : ρ₁.credit t = 0 := Nat.le_zero.mp (hcredit ▸ rest.later.credit_le t)
    have hfirst := first.balance_of_credit hbetween
    have hrest := ih hcredit
    rw [filterMap_cons_toList, filterMap_cons_toList, List.count_append, List.count_append]
    omega

end Roster

namespace Cluster

variable {s : Setup} {events : List Event} {e : Event} {held : List TaskId} {t : TaskId}
  {stage : MemoryStage} {c c₁ c' : Cluster}

/-- The task is a memory task that waits for no parents. -/
def IsUnfed (c : Cluster) (t : TaskId) : Prop :=
  ∃ m ∈ (c.task? t).bind Task.memory?, m.required = 0

instance (c : Cluster) (t : TaskId) : Decidable (c.IsUnfed t) :=
  inferInstanceAs (Decidable (∃ m ∈ (c.task? t).bind Task.memory?, m.required = 0))

theorem IsUnfed.credit_eq_zero (h : c.IsUnfed t) : c.roster.credit t = 0 := by
  obtain ⟨m, hm, hrequired⟩ := h
  obtain ⟨x, hx, hx'⟩ := Option.bind_eq_some_iff.mp hm
  refine Roster.credit_eq_zero ?_
  intro y hy
  obtain rfl := Option.some.inj ((task?_roster hx).symm.trans hy)
  rw [Task.wasReleased, x.core_memory?, hx', Option.any_some, hrequired]
  rfl

theorem IsUnfed.hasMemory (h : c.IsUnfed t) : c.roster.HasMemory t := by
  obtain ⟨m, hm, _⟩ := h
  obtain ⟨x, hx, hx'⟩ := Option.bind_eq_some_iff.mp hm
  exact ⟨x.core, task?_roster hx, x.core_isMemory.trans (Option.isSome_of_eq_some hx')⟩

/-- A task without parents is staged or has run as often as it was added. -/
theorem count_of_unfed [PatternLibrary] (hc : c.Coherent) (hrun : c.run? events = some c')
    (h : c'.IsUnfed t) :
    c'.staged.count t + (c.runs events).count t =
      c.staged.count t + (c.additions events).count t := by
  induction events generalizing c with
  | nil =>
    injection hrun with hrun
    rw [hrun]
    rfl
  | cons e rest ih =>
    obtain ⟨c₁, hafter, hrest⟩ := Option.bind_eq_some_iff.mp hrun
    obtain ⟨ls, hexplains⟩ := exists_explains_of_after? hc hafter
    have hlater := later_of_run? (hc.after? hafter) hrest
    have hcredit : c₁.roster.credit t = 0 :=
      Nat.le_zero.mp (h.credit_eq_zero ▸ hlater.credit_le t)
    have hfirst := hexplains.changes.balance_of_credit hcredit
    rw [hexplains.ran, hexplains.added] at hfirst
    have hlast := ih (hc.after? hafter) hrest
    rw [runs_cons hafter, additions_cons hafter, List.count_append, List.count_append]
    change c₁.staged.count t + _ = c.staged.count t + _ at hfirst
    omega

/-! ## What an event does to the stage -/

/-- The task that an event brings from the line to a memory worker. -/
def startedBy (c : Cluster) : Event → List TaskId
  | .moved .startMemory => c.memory.waiting.items.take 1
  | _ => []

/-- The tasks that a history brings from the line to memory workers. -/
def starts [PatternLibrary] (c : Cluster) (events : List Event) : List TaskId :=
  c.trace startedBy events

/-- What an event makes of the memory stage, as long as no storage task ends. -/
inductive Staging (c : Cluster) : Event → MemoryStage → Prop
  | switchedOn : Staging c (.asked .startMemory) { c.memory with isStarted := true }
  | switchedOff : Staging c (.asked .stopMemory) { c.memory with isStarted := false }
  | admitted (t : TaskId) (rest : List TaskId) (hstarted : c.memory.isStarted = true)
      (hitems : c.memory.queue.items = t :: rest) :
      Staging c (.moved .admitMemory)
        { c.memory with queue := ⟨rest⟩, waiting := c.memory.waiting.push t }
  | started (t : TaskId) (rest : List TaskId) (hitems : c.memory.waiting.items = t :: rest) :
      Staging c (.moved .startMemory)
        { c.memory with waiting := ⟨rest⟩, running := c.memory.running ++ [t] }
  | ran (t : TaskId) (elapsed : Duration) (ht : t ∈ c.memory.running) (running : List TaskId) :
      Staging c (.moved (.runMemory t elapsed)) { c.memory with running := running }
  | added (e : Event) (he : e ≠ .asked .startMemory) (hstarted : c.startedBy e = []) :
      Staging c e { c.memory with queue := ⟨c.memory.queue.items ++ c.addedBy e⟩ }

/-- An event that leaves the stage alone adds nothing to it. -/
theorem Staging.kept (he : e ≠ .asked .startMemory) (hstarted : c.startedBy e = [])
    (hadded : c.addedBy e = []) (hstage : stage = c.memory) : Staging c e stage := by
  have hsame : stage = { c.memory with queue := ⟨c.memory.queue.items ++ c.addedBy e⟩ } := by
    rw [hstage, hadded, List.append_nil]
  rw [hsame]
  exact .added e he hstarted

theorem memory_foldl_addMemory (ts : List TaskId) (c : Cluster) :
    (ts.foldl addMemory c).memory = { c.memory with queue := ⟨c.memory.queue.items ++ ts⟩ } := by
  induction ts generalizing c with
  | nil => rw [List.foldl_nil, List.append_nil]
  | cons t rest ih =>
    rw [List.foldl_cons, ih]
    simp [addMemory, Queue.push]

section

variable [PatternLibrary]

theorem memory_obey (c : Cluster) {r : Request} (hr : r.sparesTasks = true) :
    (c.obey r).1.memory = c.memory :=
  congrArg Backdrop.memory (backdrop_obey c hr)

theorem staging_handle (c : Cluster) (r : Request) :
    Staging c (.asked r) (c.handle r).1.memory := by
  by_cases hfits : c.fits r = true
  · rw [handle, if_pos hfits]
    cases r with
    | startMemory => exact .switchedOn
    | stopMemory => exact .switchedOff
    | addMemory ts =>
      have hadded : c.addedBy (.asked (.addMemory ts)) = ts := if_pos hfits
      have hstaging := Staging.added (c := c) (.asked (.addMemory ts)) nofun rfl
      rw [hadded, ← memory_foldl_addMemory ts c] at hstaging
      exact hstaging
    | shutdown => exact .kept nofun rfl rfl rfl
    | dropExecutor => exact .kept nofun rfl rfl rfl
    | _ =>
      refine .kept nofun rfl rfl ?_
      first
      | exact obey_keeps_of_isTaskWork (fun _ _ => rfl) c rfl
      | exact memory_obey c rfl
  · have hsame : (c.handle r).1.memory = c.memory := by rw [handle, if_neg hfits]
    refine .kept ?_ rfl ?_ hsame
    · rintro ⟨⟩
      exact hfits rfl
    · cases r with
      | addMemory ts => exact if_neg hfits
      | _ => rfl

theorem deliveries_eq_nil_of_run? (hc : c.Sound) (hrun : c.run? events = some c')
    (hnone : c'.traffic.deliveries = []) : c.traffic.deliveries = [] := by
  have hsub := subperm_deliveries_of_run? hc hrun
  rw [hnone] at hsub
  exact List.subperm_nil.mp hsub

theorem deliveries_eq_nil_of_after? (hc : c.Sound) (hafter : c.after? e = some c')
    (hnone : c'.traffic.deliveries = []) : c.traffic.deliveries = [] := by
  have hrun : c.run? [e] = some c' := by
    rw [run?, hafter]
    rfl
  exact deliveries_eq_nil_of_run? hc hrun hnone

/-- Without deliveries no storage task ends. -/
theorem staging_of_after? (hc : c.Sound) (hafter : c.after? e = some c')
    (hnone : c'.traffic.deliveries = []) : Staging c e c'.memory := by
  cases e with
  | asked r =>
    injection hafter with hafter
    exact hafter ▸ staging_handle c r
  | moved step =>
    have hnobody : ∀ d, d ∉ c.traffic.deliveries :=
      List.eq_nil_iff_forall_not_mem.mp (deliveries_eq_nil_of_after? hc hafter hnone)
    have hstep : c.step? step = some c' := hafter
    -- Without deliveries no loop takes one and no call ends; only moves of the stage change it.
    cases step with
    | resolve u =>
      obtain ⟨l, _, _, _, rfl⟩ := serve_of_resolve? hstep
      exact .kept nofun rfl rfl rfl
    | giveUp u =>
      obtain ⟨l, _, _, _, rfl⟩ := resign_of_giveUp? hstep
      exact .kept nofun rfl rfl rfl
    | dispatch u =>
      obtain ⟨l, d, rest, hl, _, _, hitems, _⟩ := dispatch_of_dispatch? hstep
      exact absurd (mem_deliveries_of_queue (mem_units_of_unit? hl)
        (hitems ▸ List.mem_cons_self)) (hnobody d)
    | start engine =>
      exact .kept nofun rfl rfl (congrArg Backdrop.memory (backdrop_start? hstep))
    | complete id elapsed =>
      obtain ⟨r, _, hcompletion⟩ := completion_of_complete? hstep
      exact absurd (mem_deliveries_of_running (List.mem_of_find?_eq_some hcompletion.found))
        (hnobody r.delivery)
    | admitMemory =>
      obtain ⟨t, rest, hstarted, hitems, rfl⟩ := admitted_of_admitMemory? hstep
      exact .admitted t rest hstarted hitems
    | startMemory =>
      obtain ⟨t, rest, _, hitems, rfl⟩ := started_of_startMemory? hstep
      exact .started t rest hitems
    | runMemory t elapsed =>
      obtain ⟨hrunning, c₂, released, hrelease, rfl⟩ := chain_of_runMemory? hstep
      have hmemory : c₂.memory = c.memory := by
        have hkeep := memory_release (c.runStaged t elapsed) t
        rw [hrelease, memory_runStaged] at hkeep
        exact hkeep
      have hstaging := Staging.ran t elapsed hrunning (c₂.memory.running.erase t ++ released.toList)
      rw [← hmemory] at hstaging
      exact hstaging

/-! ## The line before the workers -/

omit [PatternLibrary] in
/-- What is started comes from the front of the line, and what is added goes to its end. -/
theorem Staging.line (h : Staging c e stage) :
    c.startedBy e ++ (stage.waiting.items ++ stage.queue.items) =
      c.memory.waiting.items ++ c.memory.queue.items ++ c.addedBy e := by
  cases h with
  | switchedOn => exact (List.append_nil _).symm
  | switchedOff => exact (List.append_nil _).symm
  | admitted t rest hstarted hitems => simp [startedBy, addedBy, Queue.push, hitems]
  | started t rest hitems => simp [startedBy, addedBy, hitems]
  | ran t elapsed ht running => exact (List.append_nil _).symm
  | added e he hstarted => rw [hstarted, List.nil_append, List.append_assoc]

/-- Tasks start in the order in which they were added, and those that have not started wait. -/
theorem line_of_run? (hc : c.Sound) (hrun : c.run? events = some c')
    (hnone : c'.traffic.deliveries = []) :
    c.starts events ++ (c'.memory.waiting.items ++ c'.memory.queue.items) =
      c.memory.waiting.items ++ c.memory.queue.items ++ c.additions events := by
  induction events generalizing c with
  | nil =>
    injection hrun with hrun
    rw [hrun]
    exact (List.append_nil _).symm
  | cons e rest ih =>
    obtain ⟨c₁, hafter, hrest⟩ := Option.bind_eq_some_iff.mp hrun
    have hsound := hc.after? hafter
    have hfirst := (staging_of_after? hc hafter
      (deliveries_eq_nil_of_run? hsound hrest hnone)).line
    have hlast := ih hsound hrest
    calc c.starts (e :: rest) ++ (c'.memory.waiting.items ++ c'.memory.queue.items)
        = c.startedBy e ++
            (c₁.starts rest ++ (c'.memory.waiting.items ++ c'.memory.queue.items)) := by
          rw [starts, trace_cons startedBy hafter, List.append_assoc]
          rfl
      _ = c.startedBy e ++ (c₁.memory.waiting.items ++ c₁.memory.queue.items) ++
            c₁.additions rest := by
          rw [hlast]
          exact (List.append_assoc _ _ _).symm
      _ = c.memory.waiting.items ++ c.memory.queue.items ++ c.additions (e :: rest) := by
          rw [hfirst, additions_cons hafter, List.append_assoc]

/-! ## What is held back -/

/-- The tasks that are held back after an event, if `held` were before. -/
def heldBy (c : Cluster) (held : List TaskId) : Event → List TaskId
  | .asked .startMemory => []
  | e => if c.memory.isStarted then [] else held ++ c.addedBy e

/-- The tasks that were added since the loop was last switched off, or since the beginning if it has
never been on; `held` were there before. -/
def backlog (c : Cluster) (held : List TaskId) : List Event → List TaskId
  | [] => held
  | e :: rest =>
    match c.after? e with
    | none => held
    | some c' => c'.backlog (c.heldBy held e) rest

theorem backlog_snoc (hrun : c.run? events = some c₁) (hafter : c₁.after? e = some c') :
    c.backlog held (events ++ [e]) = c₁.heldBy (c.backlog held events) e := by
  induction events generalizing c held with
  | nil =>
    injection hrun with hrun
    subst hrun
    simp only [List.nil_append, backlog, hafter]
  | cons e' rest ih =>
    obtain ⟨c₂, hfirst, hrest⟩ := Option.bind_eq_some_iff.mp hrun
    rw [List.cons_append, backlog, hfirst, backlog, hfirst]
    exact ih hrest

omit [PatternLibrary] in
theorem heldBy_of_stopped (hstopped : c.memory.isStarted = false)
    (he : e ≠ .asked .startMemory) : c.heldBy held e = held ++ c.addedBy e := by
  unfold heldBy
  split
  · exact absurd rfl he
  · rw [hstopped]
    rfl

/-- While the loop is off, its queue is what is held back, and nobody waits for workers. -/
structure Holds (c : Cluster) (held : List TaskId) : Prop where
  queue : c.memory.queue.items = held
  waiting : c.memory.waiting.items = []
  running : c.memory.running = []

omit [PatternLibrary] in
theorem memory_build (s : Setup) : (build s).memory = (blank s).memory :=
  congrArg Backdrop.memory (backdrop_build s)

/-- An event keeps what is held back, and holds back what it adds. -/
theorem Holds.staging (hholds : c.memory.isStarted = false → c.Holds held)
    (hcalm : e = .asked .stopMemory → c.MemoryRests) (hworkers : 0 < c.memory.workers)
    (h : Staging c e c'.memory) (hstopped : c'.memory.isStarted = false) :
    c'.Holds (c.heldBy held e) := by
  generalize hstage : c'.memory = stage at h
  rw [hstage] at hstopped
  suffices hplaces : stage.queue.items = c.heldBy held e ∧ stage.waiting.items = [] ∧
      stage.running = [] by
    obtain ⟨hqueue, hwaiting, hrunning⟩ := hplaces
    rw [← hstage] at hqueue hwaiting hrunning
    exact ⟨hqueue, hwaiting, hrunning⟩
  cases h with
  | switchedOn => cases hstopped
  | switchedOff =>
    cases hstarted : c.memory.isStarted with
    | true =>
      -- A loop that is switched off has nothing left to do.
      obtain ⟨hqueue, hwaiting, hrunning⟩ := (hcalm rfl).items hworkers
      refine ⟨?_, hwaiting, hrunning⟩
      have hheld : c.heldBy held (.asked .stopMemory) = [] := if_pos hstarted
      exact (hqueue hstarted).trans hheld.symm
    | false =>
      obtain ⟨hqueue, hwaiting, hrunning⟩ := hholds hstarted
      refine ⟨?_, hwaiting, hrunning⟩
      have hheld : c.heldBy held (.asked .stopMemory) = held ++ [] :=
        heldBy_of_stopped hstarted nofun
      exact hqueue.trans ((List.append_nil held).symm.trans hheld.symm)
  | admitted t rest hstarted hitems => exact absurd (hstarted.symm.trans hstopped) nofun
  | started t rest hitems =>
    have hwaiting := (hholds hstopped).waiting
    rw [hitems] at hwaiting
    cases hwaiting
  | ran t elapsed ht running =>
    rw [(hholds hstopped).running] at ht
    cases ht
  | added e he hstarted =>
    obtain ⟨hqueue, hwaiting, hrunning⟩ := hholds hstopped
    refine ⟨?_, hwaiting, hrunning⟩
    rw [heldBy_of_stopped hstopped he, ← hqueue]

/-- Over a history in which the loop is only switched off when it has nothing to do, what is held
back while it is off is what was added since. -/
theorem held_of_run? (hrun : (build s).run? events = some c)
    (hnone : c.traffic.deliveries = [])
    (hcalm : ∀ first rest c₁, events = first ++ .asked .stopMemory :: rest →
      (build s).run? first = some c₁ → c₁.MemoryRests)
    (hstopped : c.memory.isStarted = false) : c.Holds ((build s).backlog [] events) := by
  induction events using List.reverseRecOn generalizing c with
  | nil =>
    injection hrun with hrun
    subst hrun
    constructor <;> rw [memory_build] <;> rfl
  | append_singleton init e ih =>
    obtain ⟨c₁, hinit, hafter⟩ := run?_snoc.mp hrun
    have hsound := (sound_build s).run? hinit
    have hbefore := deliveries_eq_nil_of_after? hsound hafter hnone
    have hfirst : c₁.memory.isStarted = false → c₁.Holds ((build s).backlog [] init) := by
      refine ih hinit hbefore ?_
      intro first rest c₂ hinit' hfirst
      refine hcalm first (rest ++ [e]) c₂ ?_ hfirst
      rw [hinit', List.append_assoc, List.cons_append]
    rw [backlog_snoc hinit hafter]
    refine Holds.staging hfirst ?_ (memoryWorkers_pos hinit)
      (staging_of_after? hsound hafter hnone) hstopped
    rintro rfl
    exact hcalm init [] c₁ rfl hinit

/-! ## Histories of the memory stage -/

/-- A history of the memory stage by itself: nobody gives a task a result by hand, every task is
added once and waits for no parents, no storage task has been handed over, and the loop is switched
off only when it has nothing to do. -/
structure MemoryHistory (s : Setup) (events : List Event) (c : Cluster) : Prop where
  run : (build s).run? events = some c
  unforced : ∀ e ∈ events, e.setsResult = false
  once : ((build s).additions events).Nodup
  unfed : ∀ t ∈ (build s).additions events, c.IsUnfed t
  undelivered : c.traffic.deliveries = []
  calm : ∀ first rest c₁, events = first ++ .asked .stopMemory :: rest →
    (build s).run? first = some c₁ → c₁.MemoryRests

namespace MemoryHistory

variable (h : MemoryHistory s events c)
include h

/-- An added task is staged, or it has run once. -/
theorem count_eq_one (ht : t ∈ (build s).additions events) :
    c.staged.count t + ((build s).runs events).count t = 1 := by
  have hcount := count_of_unfed (coherent_build s) h.run (h.unfed t ht)
  have hempty : (build s).staged.count t = 0 := by
    rw [staged, memory_build]
    rfl
  rw [hempty, List.count_eq_one_of_mem h.once ht] at hcount
  exact hcount

/-- An added task has a result exactly if it has run. -/
theorem isSome_result?_iff (ht : t ∈ (build s).additions events) :
    (c.result? t).isSome ↔ t ∈ (build s).runs events := by
  have hpast : t ∉ (build s).traffic.past.map Delivery.task := by
    have hfinished : (build s).traffic.finished = [] := finished_build s
    rw [past, hfinished]
    exact List.not_mem_nil
  have hnone : (build s).roster.result? t = none := by
    rw [Roster.result?, roster_build]
    rfl
  rw [← result?_roster]
  exact isSome_result?_iff_mem_runs (coherent_build s) h.unforced h.run hpast hnone
    (h.unfed t ht).hasMemory

/-- What waits has been added. -/
theorem queue_subset : c.memory.queue.items ⊆ (build s).additions events := by
  have hline := line_of_run? (sound_build s) h.run h.undelivered
  have hempty : (build s).memory.waiting.items ++ (build s).memory.queue.items = [] := by
    rw [memory_build]
    rfl
  rw [hempty, List.nil_append] at hline
  intro t ht
  rw [← hline]
  exact List.mem_append_right _ (List.mem_append_right _ ht)

/-- A stage that is on and has nothing to do has run every added task. -/
theorem isSome_result? (hrests : c.MemoryRests) (hstarted : c.memory.isStarted = true)
    (ht : t ∈ (build s).additions events) : (c.result? t).isSome := by
  obtain ⟨hqueue, hwaiting, hrunning⟩ := hrests.items (memoryWorkers_pos h.run)
  have hempty : c.staged = [] := by
    rw [staged, hqueue hstarted, hwaiting, hrunning]
    rfl
  have hcount := h.count_eq_one ht
  rw [hempty, List.count_nil, Nat.zero_add] at hcount
  have hran : 0 < ((build s).runs events).count t := hcount ▸ Nat.one_pos
  exact (h.isSome_result?_iff ht).mpr (List.count_pos_iff.mp hran)

/-- A task that waits for the loop has not run. -/
theorem result?_eq_none (ht : t ∈ c.memory.queue.items) : c.result? t = none := by
  have hadded := h.queue_subset ht
  have hcount := h.count_eq_one hadded
  have hstaged : 0 < c.staged.count t :=
    List.count_pos_iff.mpr (List.mem_append_left _ (List.mem_append_left _ ht))
  have hnot : ¬(c.result? t).isSome := by
    intro hsome
    have hran := List.count_pos_iff.mpr ((h.isSome_result?_iff hadded).mp hsome)
    omega
  exact Option.not_isSome_iff_eq_none.mp hnot

end MemoryHistory

end

theorem pending_of_waiting (hwaiting : c.memory.waiting.items = []) :
    c.pending = c.memory.queue.items.length := by
  rw [pending, Queue.size, Queue.size, hwaiting]
  rfl

/-- A cluster whose memory loop is off at first. -/
def pausedSetup : Setup := { sampleSetup with memoryStarted := false }

/-- Two tasks run on the memory stage, of which the first fails. -/
def sampleCycle : List Event :=
  [.asked (.newSource [.delete []] default), .asked (.newSource [] default),
    .asked (.newSource [] default), .asked (.addMemory [0]), .asked .startMemory,
    .asked (.addMemory [1]), .moved .admitMemory, .moved .startMemory, .moved .admitMemory,
    .moved (.runMemory 0 Duration.zero), .moved .startMemory, .moved (.runMemory 1 Duration.zero)]

/-- Then the loop is switched off, and a third task is added. -/
def samplePause : List Event := sampleCycle ++ [.asked .stopMemory, .asked (.addMemory [2])]

def sampleResume : List Event := [.asked .startMemory, .moved .admitMemory, .moved .startMemory]

end Cluster
end SeriesExec
