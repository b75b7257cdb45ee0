import Mathlib.Data.List.Count
import Mathlib.Data.List.Induction
import Mathlib.Data.List.Perm.Subperm
import SeriesExec.Proofs.Release

/-!
# Followers — what becomes of a follower in a history

The counts of a follower and of the memory stage are followed through a whole history.  This file
defines:

* `Cluster.endings`, `Cluster.runs`, `Cluster.additions`, `Cluster.arrivals` — the tasks that a
  history ends, runs in memory, adds to the memory stage from outside, and brings there in any way;
* `Cluster.Registered` — a follower that has just been made.

Main statements: a follower runs or is staged as often as it was added or released
(`Registered.balance`), it is released once all its parents have ended (`Registered.credit_eq`), and
then its result is that of its operators over their results (`Registered.served`).
-/

namespace SeriesExec

open Traffic Roster

/-! ## Lists in which no member of another list is repeated -/

section Counting

variable {α : Type} {l m : List α} {keep : α → Bool}

/-- If nothing in `m` is repeated in `l`, all of `m` is met as soon as enough of it is. -/
theorem mem_of_length_le_countP [DecidableEq α] (honce : ∀ a ∈ m, l.count a ≤ 1)
    (hkeep : ∀ a, keep a = true → a ∈ m) (hlength : m.length ≤ l.countP keep) :
    ∀ a ∈ m, a ∈ l ∧ keep a = true := by
  -- What is kept is part of `m`, each once; being as long as `m`, it is all of it.
  have hnodup : (l.filter keep).Nodup := by
    refine List.nodup_iff_count_le_one.mpr ?_
    intro a
    by_cases ha : a ∈ m
    · exact Nat.le_trans (List.filter_sublist.count_le a) (honce a ha)
    · have hnone : a ∉ l.filter keep := fun hmem => ha (hkeep a (List.mem_filter.mp hmem).2)
      rw [List.count_eq_zero.mpr hnone]
      exact Nat.zero_le 1
  have hsubset : l.filter keep ⊆ m := fun a ha => hkeep a (List.mem_filter.mp ha).2
  have hperm : (l.filter keep).Perm m := by
    refine (List.subperm_of_subset hnodup hsubset).perm_of_length_le ?_
    rwa [← List.countP_eq_length_filter]
  exact fun a ha => List.mem_filter.mp (hperm.mem_iff.mpr ha)

theorem length_le_countP (hm : m.Nodup) (hmem : ∀ a ∈ m, a ∈ l ∧ keep a = true) :
    m.length ≤ l.countP keep := by
  rw [List.countP_eq_length_filter]
  exact (List.subperm_of_subset hm fun a ha => List.mem_filter.mpr (hmem a ha)).length_le

/-- If all of `m` is met in no more than its length, nothing in it is repeated. -/
theorem count_le_one_of_countP_le [DecidableEq α] (hm : m.Nodup)
    (hmem : ∀ a ∈ m, a ∈ l ∧ keep a = true) (hlength : l.countP keep ≤ m.length) :
    ∀ a ∈ m, l.count a ≤ 1 := by
  rw [List.countP_eq_length_filter] at hlength
  have hsub := List.subperm_of_subset hm fun a ha => List.mem_filter.mpr (hmem a ha)
  intro a ha
  rw [← List.count_filter (hmem a ha).2, ← (hsub.perm_of_length_le hlength).count_eq a]
  exact List.nodup_iff_count_le_one.mp hm a

end Counting

namespace Cluster

variable {c c' c₁ : Cluster} {events : List Event}

/-! ## What a history does to memory tasks -/

/-- Whether an event leaves tasks to loops and workers. -/
def Event.isHandsOff (e : Event) : Bool :=
  !e.isByHand && !e.setsResult

theorem setsResult_of_isHandsOff {events : List Event}
    (hevents : ∀ e ∈ events, e.isHandsOff = true) : ∀ e ∈ events, e.setsResult = false := by
  intro e he
  have hhands := hevents e he
  simp only [Event.isHandsOff, Bool.and_eq_true, Bool.not_eq_true'] at hhands
  exact hhands.2

variable [PatternLibrary]

/-- The tasks that a history ends. -/
def endings (c : Cluster) (events : List Event) : List TaskId :=
  c.trace endedBy events

/-- The tasks that a history runs in memory. -/
def runs (c : Cluster) (events : List Event) : List TaskId :=
  c.trace (fun _ e => e.ran) events

/-- The tasks that a history adds to the memory stage from outside. -/
def additions (c : Cluster) (events : List Event) : List TaskId :=
  c.trace addedBy events

/-- The tasks that an event brings to the memory stage: they are there afterwards, or have just left
it, and were not there before. -/
def arrivedBy (c : Cluster) (e : Event) : List TaskId :=
  match c.after? e with
  | none => []
  | some c' => (c'.staged ++ e.ran).diff c.staged

/-- The tasks that a history brings to the memory stage. -/
def arrivals (c : Cluster) (events : List Event) : List TaskId :=
  c.trace arrivedBy events

variable {e : Event} (hafter : c.after? e = some c') (rest : List Event)
include hafter

theorem endings_cons : c.endings (e :: rest) = c.endedBy e ++ c'.endings rest :=
  trace_cons endedBy hafter rest

theorem runs_cons : c.runs (e :: rest) = e.ran ++ c'.runs rest :=
  trace_cons _ hafter rest

theorem additions_cons : c.additions (e :: rest) = c.addedBy e ++ c'.additions rest :=
  trace_cons addedBy hafter rest

theorem arrivals_cons : c.arrivals (e :: rest) = c.arrivedBy e ++ c'.arrivals rest :=
  trace_cons arrivedBy hafter rest

omit hafter

theorem notMem_additions_of_append {first second : List Event} (hrun : c.run? first = some c')
    {t : TaskId} (ht : t ∉ c.additions (first ++ second)) : t ∉ c.additions first := by
  intro hmem
  apply ht
  rw [additions, trace_append _ hrun]
  exact List.mem_append_left _ hmem

theorem Explains.byHand_notMem {e : Event} {ls : List Label} (h : c.Explains e c' ls)
    (he : e.isHandsOff = true) : .byHand ∉ ls := by
  intro hmem
  simp [Event.isHandsOff, h.byHand hmem] at he

theorem Explains.forced_notMem {e : Event} {ls : List Label} (h : c.Explains e c' ls)
    (he : e.isHandsOff = true) : .forced ∉ ls := by
  intro hmem
  simp [Event.isHandsOff, h.forced hmem] at he

theorem Explains.balance {e : Event} {ls : List Label} (h : c.Explains e c' ls)
    (he : e.isHandsOff = true) (t : TaskId) :
    c'.staged.count t + e.ran.count t + c.roster.credit t =
      c.staged.count t + (c.addedBy e).count t + c'.roster.credit t := by
  rw [← h.ran, ← h.added]
  exact h.changes.balance (h.byHand_notMem he) t

/-- A task has run or is staged as often as it was added from outside and released. -/
theorem balance_of_run? (hc : c.Coherent) (hevents : ∀ e ∈ events, e.isHandsOff = true)
    (hrun : c.run? events = some c') (t : TaskId) :
    c'.staged.count t + (c.runs events).count t + c.roster.credit t =
      c.staged.count t + (c.additions events).count t + c'.roster.credit t := by
  induction events generalizing c with
  | nil =>
    injection hrun with hrun
    rw [hrun]
    rfl
  | cons e rest ih =>
    rcases Option.bind_eq_some_iff.mp hrun with ⟨c₁, hafter, hrest⟩
    rcases exists_explains_of_after? hc hafter with ⟨ls, hexplains⟩
    have hfirst := hexplains.balance (hevents e List.mem_cons_self) t
    have hrest := ih (hc.after? hafter) (fun e he => hevents e (List.mem_cons_of_mem _ he)) hrest
    rw [runs_cons hafter, additions_cons hafter, List.count_append, List.count_append]
    omega

/-- A task comes to the memory stage as often as it is added from outside and released. -/
theorem count_arrivals (hc : c.Coherent) (hevents : ∀ e ∈ events, e.isHandsOff = true)
    (hrun : c.run? events = some c') (t : TaskId) :
    (c.arrivals events).count t + c.roster.credit t =
      (c.additions events).count t + c'.roster.credit t := by
  induction events generalizing c with
  | nil =>
    injection hrun with hrun
    rw [hrun]
    rfl
  | cons e rest ih =>
    rcases Option.bind_eq_some_iff.mp hrun with ⟨c₁, hafter, hrest⟩
    rcases exists_explains_of_after? hc hafter with ⟨ls, hexplains⟩
    have hfirst := hexplains.balance (hevents e List.mem_cons_self) t
    have hcredit := hexplains.changes.later.credit_le t
    have hrest := ih (hc.after? hafter) (fun e he => hevents e (List.mem_cons_of_mem _ he)) hrest
    -- The difference loses nothing, since a task never leaves the stage but by running.
    have harrived : (c.arrivedBy e).count t =
        c₁.staged.count t + e.ran.count t - c.staged.count t := by
      rw [arrivedBy, hafter]
      dsimp only
      rw [List.count_diff, List.count_append]
    rw [arrivals_cons hafter, additions_cons hafter, List.count_append, List.count_append,
      harrived]
    omega

omit [PatternLibrary] in
/-- No delivery of a memory task is over, for there is none. -/
theorem Coherent.notMem_past (hc : c.Coherent) {t : TaskId} (ht : c.roster.HasMemory t) :
    t ∉ c.traffic.past.map Delivery.task := by
  intro hmem
  rcases List.mem_map.mp hmem with ⟨d, hd, rfl⟩
  exact (hc.hasStorage (List.mem_append_right _ hd)).not_hasMemory ht

/-- Storage tasks end as often as their deliveries do, memory tasks as often as they run. -/
theorem count_endings (hc : c.Coherent) (hrun : c.run? events = some c') (t : TaskId) :
    (c.endings events).count t + (c.traffic.past.map Delivery.task).count t =
      (c'.traffic.past.map Delivery.task).count t + (c.runs events).count t := by
  induction events generalizing c with
  | nil =>
    injection hrun with hrun
    rw [hrun]
    simp [endings, runs, trace]
  | cons e rest ih =>
    rcases Option.bind_eq_some_iff.mp hrun with ⟨c₁, hafter, hrest⟩
    rcases exists_explains_of_after? hc hafter with ⟨ls, hexplains⟩
    have hrest := ih (hc.after? hafter) hrest
    -- Both sides read the same list of endings.
    have hpast : ∀ c : Cluster, c.traffic.past.map Delivery.task =
        (c.finished.map Ending.news).map Prod.fst := by
      intro c
      rw [List.map_map, past, List.map_map]
      rfl
    have hfirst : (c.endedBy e).count t + (c.traffic.past.map Delivery.task).count t =
        (c₁.traffic.past.map Delivery.task).count t + e.ran.count t := by
      rw [hpast, hpast, hexplains.settled, List.map_append, List.count_append,
        ← (hexplains.ended_perm hafter).count_eq, (Roster.ended_perm ls).count_eq,
        List.count_append, hexplains.ran]
      omega
    rw [endings_cons hafter, runs_cons hafter, List.count_append, List.count_append]
    omega

/-- Only storage tasks and memory tasks are ended by loops and workers. -/
theorem kind_of_endings (hc : c.Coherent) (hrun : c.run? events = some c') {t : TaskId}
    (ht : t ∈ c.endings events) : c'.roster.HasStorage t ∨ c'.roster.HasMemory t := by
  induction events generalizing c with
  | nil => cases ht
  | cons e rest ih =>
    rcases Option.bind_eq_some_iff.mp hrun with ⟨c₁, hafter, hrest⟩
    rcases exists_explains_of_after? hc hafter with ⟨ls, hexplains⟩
    have hlater := later_of_run? (hc.after? hafter) hrest
    rw [endings_cons hafter] at ht
    rcases List.mem_append.mp ht with ht | ht
    · have hended := ((hexplains.ended_perm hafter).symm.trans (Roster.ended_perm ls)).mem_iff.mp ht
      -- A loop or a worker of an engine ends storage tasks, a memory worker ends memory tasks.
      rcases List.mem_append.mp hended with ht | ht
      · exact .inl ((hexplains.changes.hasStorage_of_settled ht).later hlater)
      · exact .inr ((hexplains.changes.hasMemory_of_ran ht).later hlater)
    · exact ih (hc.after? hafter) hrest ht

theorem hasMemory_of_runs (hc : c.Coherent) (hrun : c.run? events = some c') {t : TaskId}
    (ht : t ∈ c.runs events) : c'.roster.HasMemory t := by
  induction events generalizing c with
  | nil => cases ht
  | cons e rest ih =>
    rcases Option.bind_eq_some_iff.mp hrun with ⟨c₁, hafter, hrest⟩
    rcases exists_explains_of_after? hc hafter with ⟨ls, hexplains⟩
    rw [runs_cons hafter, ← hexplains.ran] at ht
    rcases List.mem_append.mp ht with ht | ht
    · exact (hexplains.changes.hasMemory_of_ran ht).later
        (later_of_run? (hc.after? hafter) hrest)
    · exact ih (hc.after? hafter) hrest ht

/-- A memory task that had no result, and of which nothing was delivered, has one exactly if it has
run. -/
theorem isSome_result?_iff_mem_runs (hc : c.Coherent)
    (hforced : ∀ e ∈ events, e.setsResult = false) (hrun : c.run? events = some c') {t : TaskId}
    (hpast : t ∉ c.traffic.past.map Delivery.task) (hnone : c.roster.result? t = none)
    (hmemory : c'.roster.HasMemory t) : (c'.roster.result? t).isSome ↔ t ∈ c.runs events := by
  -- A memory task ends by running; nothing of it is delivered later either.
  have hendings : t ∈ c.endings events ↔ t ∈ c.runs events := by
    have hcount := count_endings hc hrun t
    rw [List.count_eq_zero.mpr ((hc.run? hrun).notMem_past hmemory),
      List.count_eq_zero.mpr hpast] at hcount
    rw [← List.count_pos_iff, ← List.count_pos_iff]
    omega
  rw [Cluster.isSome_result?_iff hc hforced hrun (isGlobal_eq_false (.inr hmemory)), hnone,
    show c.trace endedBy events = c.endings events from rfl, hendings]
  simp only [Option.isSome_none, Bool.false_eq_true, false_or]

/-! ## Followers that have just been made -/

variable {f : TaskId} {operators : List Operator} {source : Option RowStream}
  {parents : List TaskId}

/-- A follower stays fed by its parents, and goes on counting those of their ends that are
reported. -/
theorem fed_ready_of_run? (hc : c.Coherent) (hfed : c.roster.Fed f operators source parents)
    (hevents : ∀ e ∈ events, e.isHandsOff = true) (hrun : c.run? events = some c') :
    c'.roster.Fed f operators source parents ∧ c'.roster.ready f =
      c.roster.ready f + (c.endings events).countP (c.roster.reports parents) := by
  induction events generalizing c with
  | nil =>
    injection hrun with hrun
    exact ⟨hrun ▸ hfed, hrun ▸ rfl⟩
  | cons e rest ih =>
    rcases Option.bind_eq_some_iff.mp hrun with ⟨c₁, hafter, hrest⟩
    rcases exists_explains_of_after? hc hafter with ⟨ls, hexplains⟩
    have hhand := hexplains.byHand_notMem (hevents e List.mem_cons_self)
    have hready := hexplains.changes.ready_eq hhand hfed
    obtain ⟨hfed', hrest⟩ := ih (hc.after? hafter) (hexplains.changes.fed hhand hfed)
      (fun e he => hevents e (List.mem_cons_of_mem _ he)) hrest
    -- Whether an end is reported does not depend on when one asks.
    have hreports : c₁.roster.reports parents = c.roster.reports parents :=
      funext (hfed.reports_eq hexplains.changes.later)
    refine ⟨hfed', ?_⟩
    rw [hrest, hready, (hexplains.ended_perm hafter).countP_eq, hreports, endings_cons hafter,
      List.countP_append, Nat.add_assoc]

/-- The memory task `f` has just been made, with a source of its own or as the follower of
`parents`. -/
structure Registered (c : Cluster) (f : TaskId) (operators : List Operator)
    (source : Option RowStream) (parents : List TaskId) : Prop where
  coherent : c.Coherent
  nodup : parents.Nodup
  fed : c.roster.Fed f operators source parents
  unready : c.roster.ready f = 0
  unstaged : f ∉ c.staged
  unsettled : c.roster.result? f = none

theorem linked_of_handle (h : c.handle (.follow operators parents) = (c', .made f)) :
    Linked c.roster c'.roster f operators parents := by
  unfold handle at h
  -- A reply with a task comes from a request that fits and has found no fault.
  split at h
  · rename_i hfits
    unfold obey at h
    dsimp only at h
    split at h
    · rename_i hfollow
      rcases Prod.mk.inj h with ⟨rfl, hmade⟩
      injection hmade with hmade
      subst hmade
      exact linked_of_follow (fun p hp => (List.all_eq_true.mp hfits) p hp) hfollow
    · cases (Prod.mk.inj h).2
  · cases (Prod.mk.inj h).2

theorem registered_of_handle (hc : c.Coherent)
    (h : c.handle (.follow operators parents) = (c', .made f)) :
    c'.Registered f operators none parents := by
  have hlinked := linked_of_handle h
  have hafter : c.after? (.asked (.follow operators parents)) = some c' := by rw [after?, h]
  refine ⟨hc.after? hafter, hlinked.nodup, hlinked.fed hc.typed, ?_, ?_, ?_⟩
  · simp [ready, hlinked.self, Task.newFollower, Task.new, Task.memory?]
  · intro hstaged
    rw [show c'.staged = c.staged from hlinked.staged] at hstaged
    -- Staged tasks are there, and the follower has just been made.
    rcases hc.typed.staged f hstaged with ⟨x, hx, _⟩
    exact Option.some_ne_none x (hx.symm.trans hlinked.new)
  · simp [Roster.result?, hlinked.self, Task.newFollower, Task.new]

namespace Registered

variable (h : c₁.Registered f operators source parents)
  (hevents : ∀ e ∈ events, e.isHandsOff = true) (hrun : c₁.run? events = some c)
include h hevents hrun

/-- A follower stays fed by its parents, and counts those of their ends that are reported. -/
theorem fed_of_run? : c.roster.Fed f operators source parents ∧
    c.roster.ready f = (c₁.endings events).countP (c₁.roster.reports parents) := by
  have hall := fed_ready_of_run? h.coherent h.fed hevents hrun
  rwa [h.unready, Nat.zero_add] at hall

/-- A follower is released exactly if enough ends of its parents have been reported. -/
theorem credit_eq : c.roster.credit f =
    if 0 < parents.length ∧
      parents.length ≤ (c₁.endings events).countP (c₁.roster.reports parents) then 1 else 0 := by
  rcases h.fed_of_run? hevents hrun with ⟨hfed, hready⟩
  rw [hfed.credit_eq, hready]

omit [PatternLibrary] hevents hrun in
theorem credit_eq_zero : c₁.roster.credit f = 0 := by
  rw [h.fed.credit_eq, h.unready]
  exact if_neg (by omega)

/-- A follower runs or is staged as often as it was added or released. -/
theorem balance : c.staged.count f + (c₁.runs events).count f =
    (c₁.additions events).count f + c.roster.credit f := by
  have hbalance := balance_of_run? h.coherent hevents hrun f
  rw [h.credit_eq_zero, List.count_eq_zero.mpr h.unstaged] at hbalance
  omega

/-- A follower that nobody adds from outside comes to the memory stage once at most. -/
theorem count_arrivals_le_one (hadded : f ∉ c₁.additions events) :
    (c₁.arrivals events).count f ≤ 1 := by
  have harrivals := count_arrivals h.coherent hevents hrun f
  have hcredit := credit_le_one c.roster f
  rw [h.credit_eq_zero, List.count_eq_zero.mpr hadded] at harrivals
  omega

omit h hevents hrun in
/-- If no parent ends twice, the ends of all of them have been reported once enough have. -/
theorem reported_of_length_le (honce : ∀ p ∈ parents, (c₁.endings events).count p ≤ 1)
    (hreported : parents.length ≤ (c₁.endings events).countP (c₁.roster.reports parents)) :
    ∀ p ∈ parents, p ∈ c₁.endings events ∧ c₁.roster.reports parents p = true := by
  -- As many parents have reported as there are, none twice: so each of them has.
  refine mem_of_length_le_countP honce ?_ hreported
  intro t ht
  exact of_decide_eq_true (Bool.and_eq_true_iff.mp ht).1

/-- If no parent ends twice, all of them have ended once enough ends have been reported, and all of
them are sync. -/
theorem parents_of_reported (honce : ∀ p ∈ parents, (c₁.endings events).count p ≤ 1)
    (hreported : parents.length ≤ (c₁.endings events).countP (c₁.roster.reports parents)) :
    ∀ p ∈ parents, ∃ x, c.roster.task? p = some x ∧ x.isSync ∧ x.result.isSome := by
  intro p hp
  rcases reported_of_length_le honce hreported p hp with ⟨hended, hreports⟩
  have hglobal := isGlobal_eq_false (kind_of_endings h.coherent hrun hended)
  have hforced := setsResult_of_isHandsOff hevents
  have hresult := (isSome_result?_iff h.coherent hforced hrun hglobal).mpr (.inr hended)
  rcases h.fed.exist p hp with ⟨x, hx⟩
  rcases later_of_run? h.coherent hrun p x hx with ⟨y, hy, _⟩
  rw [Roster.result?, hy, Option.bind_some] at hresult
  refine ⟨y, hy, ?_, hresult⟩
  rw [← h.fed.reports_eq (later_of_run? h.coherent hrun), reports, hy] at hreports
  exact (Bool.and_eq_true_iff.mp hreports).2

/-- If no parent ends twice, a follower that nobody adds from outside is staged only after all
parents have ended, and only if all of them are sync. -/
theorem parents_of_staged (hadded : f ∉ c₁.additions events)
    (honce : ∀ p ∈ parents, (c₁.endings events).count p ≤ 1) (hstaged : f ∈ c.staged) :
    ∀ p ∈ parents, ∃ x, c.roster.task? p = some x ∧ x.isSync ∧ x.result.isSome := by
  have hbalance := h.balance hevents hrun
  have hcount := List.count_pos_iff.mpr hstaged
  rw [List.count_eq_zero.mpr hadded, h.credit_eq hevents hrun] at hbalance
  split at hbalance
  · rename_i hreleased
    exact h.parents_of_reported hevents hrun honce hreleased.2
  · omega

end Registered

/-! ## The result of a follower -/

/-- If the follower has a result, its parents have results that explain it. -/
def Served (ρ : Roster) (f : TaskId) (operators : List Operator) (source : Option RowStream)
    (parents : List TaskId) : Prop :=
  ∀ r, ρ.result? f = some r →
    ∃ rs, parents.map ρ.result? = rs.map some ∧ r = Task.fedResult operators source rs

omit [PatternLibrary] in
theorem map_result?_of_later {ρ ρ' : Roster} (hlater : ρ.Later ρ') {rs : List TaskResult}
    (h : parents.map ρ.result? = rs.map some) : parents.map ρ'.result? = rs.map some := by
  rw [← h]
  refine List.map_congr_left ?_
  intro p hp
  have hmem : ρ.result? p ∈ rs.map some := h ▸ List.mem_map_of_mem hp
  rcases List.mem_map.mp hmem with ⟨r, _, hr⟩
  rw [← hr]
  exact hlater.result? hr.symm

omit [PatternLibrary] in
theorem exists_results {ρ : Roster} (h : ∀ p ∈ parents, (ρ.result? p).isSome) :
    ∃ rs : List TaskResult, parents.map ρ.result? = rs.map some := by
  induction parents with
  | nil => exact ⟨[], rfl⟩
  | cons p rest ih =>
    rcases Option.isSome_iff_exists.mp (h p List.mem_cons_self) with ⟨r, hr⟩
    rcases ih fun q hq => h q (List.mem_cons_of_mem p hq) with ⟨rs, hrs⟩
    exact ⟨r :: rs, by rw [List.map_cons, List.map_cons, hr, hrs]⟩

theorem Served.later {ρ ρ' : Roster} (h : Served ρ f operators source parents)
    (hlater : ρ.Later ρ') (hresult : ρ'.result? f = ρ.result? f) :
    Served ρ' f operators source parents := by
  intro r hr
  rcases h r (hresult ▸ hr) with ⟨rs, hrs, heq⟩
  exact ⟨rs, map_result?_of_later hlater hrs, heq⟩

/-- A memory task whose parents have results gets the result of its operators over them. -/
theorem Served.run {ρ ρ' : Roster} (hfed : ρ.Fed f operators source parents)
    (hserved : Served ρ f operators source parents)
    (hresults : ∀ p ∈ parents, (ρ.result? p).isSome) {r : TaskResult}
    (h : Change ρ ρ' (.ran f r)) : Served ρ' f operators source parents := by
  have hlater := h.later
  have hresult := h.result? (by simp) (isGlobal_eq_false (.inr (hfed.hasMemory.later hlater)))
  -- A follower that runs again keeps its first result.
  cases hold : ρ.result? f with
  | some r₀ =>
    refine hserved.later hlater ?_
    rw [hresult, hold, Option.some_or]
  | none =>
    intro r' hr'
    rw [hresult, hold, Option.none_or] at hr'
    have hr : r = r' := by simpa [firstResult?, Label.ended?] using hr'
    subst hr
    rcases exists_results hresults with ⟨rs, hrs⟩
    refine ⟨rs, map_result?_of_later hlater hrs, ?_⟩
    rcases hfed.self with ⟨x, m, hx, hm, hoperators, hsource, _, hparents⟩
    rw [Roster.result?, hx, Option.bind_some] at hold
    cases h with
    | ran _ y _ hy _ hfedResult _ _ =>
      rcases Option.some.inj (hx.symm.trans hy) with rfl
      have hmap : (m.parents.map fun p => (ρ.task? p).bind Task.result) = rs.map some := by
        rw [hparents hold]
        exact hrs
      rw [hfedResult m rs hm hmap, hoperators, hsource]

theorem Served.after? (hc : c.Coherent) (hfed : c.roster.Fed f operators source parents)
    (hready : f ∈ c.staged → ∀ p ∈ parents, (c.roster.result? p).isSome)
    (hserved : Served c.roster f operators source parents) {e : Event}
    (he : e.isHandsOff = true) (hafter : c.after? e = some c') :
    Served c'.roster f operators source parents := by
  rcases exists_explains_of_after? hc hafter with ⟨ls, hexplains⟩
  have hlater := hexplains.changes.later
  -- Only its own run gives the follower a result.
  by_cases hran : f ∈ e.ran
  · obtain ⟨elapsed, rfl⟩ : ∃ elapsed, e = .moved (.runMemory f elapsed) := by
      unfold Event.ran at hran
      split at hran
      · exact ⟨_, by rw [List.mem_singleton.mp hran]⟩
      · cases hran
    rcases change_runMemory? hc.typed hafter with ⟨r, hchange⟩
    refine hserved.run hfed (hready ?_) hchange
    exact mem_staged_of_runMemory? hafter
  · refine hserved.later hlater ?_
    have hmemory := hfed.hasMemory.later hlater
    have hended : f ∉ (ls.filterMap Label.ended?).map Prod.fst := by
      intro hmem
      rcases List.mem_append.mp ((Roster.ended_perm ls).mem_iff.mp hmem) with hmem | hmem
      · exact (hexplains.changes.hasStorage_of_settled hmem).not_hasMemory hmemory
      · exact hran (hexplains.ran ▸ hmem)
    have hfirst : firstResult? f (ls.filterMap Label.ended?) = none := by
      rwa [← Option.not_isSome_iff_eq_none, isSome_firstResult?]
    rw [hexplains.changes.result? (hexplains.forced_notMem he)
      (isGlobal_eq_false (.inr hmemory)), hfirst, Option.or_none]

namespace Registered

variable (h : c₁.Registered f operators source parents)
  (hevents : ∀ e ∈ events, e.isHandsOff = true) (hrun : c₁.run? events = some c)
include h hevents hrun

/-- If no parent ends twice, the result of a memory task that nobody adds from outside while it has
parents is that of its operators over its source and the results of its parents. -/
theorem served_of_added (hadded : f ∈ c₁.additions events → parents = [])
    (honce : ∀ p ∈ parents, (c₁.endings events).count p ≤ 1) :
    Served c.roster f operators source parents := by
  -- By induction from the end: what has been served stays served, and the follower is staged
  -- only once its parents have ended.
  induction events using List.reverseRecOn generalizing c with
  | nil =>
    injection hrun with hrun
    intro r hr
    rw [← hrun, h.unsettled] at hr
    cases hr
  | append_singleton init e ih =>
    rcases run?_snoc.mp hrun with ⟨c₂, hinit, hafter⟩
    have hinitOff : ∀ e ∈ init, e.isHandsOff = true := by
      intro e he
      exact hevents e (List.mem_append_left _ he)
    have hinitAdded : f ∈ c₁.additions init → parents = [] := by
      intro hmem
      refine hadded ?_
      rw [additions, trace_append _ hinit]
      exact List.mem_append_left _ hmem
    have hinitOnce : ∀ p ∈ parents, (c₁.endings init).count p ≤ 1 := by
      intro p hp
      have hall := honce p hp
      rw [endings, trace_append _ hinit, List.count_append] at hall
      exact Nat.le_of_add_right_le hall
    have hserved := ih hinitOff hinit hinitAdded hinitOnce
    refine hserved.after? (h.coherent.run? hinit) (h.fed_of_run? hinitOff hinit).1
      ?_ (hevents e (List.mem_append_right _ List.mem_cons_self)) hafter
    intro hstaged p hp
    -- A task with a parent is not added, so it waits for the results.
    have hinitNone : f ∉ c₁.additions init := fun hmem => by simp [hinitAdded hmem] at hp
    obtain ⟨x, hx, _, hresult⟩ :=
      h.parents_of_staged hinitOff hinit hinitNone hinitOnce hstaged p hp
    rwa [Roster.result?, hx, Option.bind_some]

/-- If no parent ends twice, the result of a follower that nobody adds from outside is that of its
operators over the results of its parents. -/
theorem served (hadded : f ∉ c₁.additions events)
    (honce : ∀ p ∈ parents, (c₁.endings events).count p ≤ 1) :
    Served c.roster f operators source parents :=
  h.served_of_added hevents hrun (fun hmem => absurd hmem hadded) honce

/-- A follower has a result exactly if it has run. -/
theorem isSome_result?_iff_mem_runs : (c.roster.result? f).isSome ↔ f ∈ c₁.runs events :=
  Cluster.isSome_result?_iff_mem_runs h.coherent (setsResult_of_isHandsOff hevents) hrun
    (h.coherent.notMem_past h.fed.hasMemory) h.unsettled
    (h.fed.hasMemory.later (later_of_run? h.coherent hrun))

/-- A follower that has a result, and that nobody added from outside, was released. -/
theorem released_of_result (hadded : f ∉ c₁.additions events)
    (hresult : (c.roster.result? f).isSome) : 0 < parents.length ∧
      parents.length ≤ (c₁.endings events).countP (c₁.roster.reports parents) := by
  have hran := List.count_pos_iff.mpr ((h.isSome_result?_iff_mem_runs hevents hrun).mp hresult)
  have hbalance := h.balance hevents hrun
  rw [List.count_eq_zero.mpr hadded, h.credit_eq hevents hrun] at hbalance
  split at hbalance
  · assumption
  · omega

/-- In a memory stage that has run everything, a follower has a result exactly if it was added or
released. -/
theorem isSome_result?_iff (hempty : c.staged = []) : (c.roster.result? f).isSome ↔
    f ∈ c₁.additions events ∨ 0 < parents.length ∧
      parents.length ≤ (c₁.endings events).countP (c₁.roster.reports parents) := by
  have hbalance := h.balance hevents hrun
  rw [hempty, List.count_nil, Nat.zero_add, h.credit_eq hevents hrun] at hbalance
  rw [h.isSome_result?_iff_mem_runs hevents hrun, ← List.count_pos_iff, ← List.count_pos_iff]
  split at hbalance
  · rename_i hreleased
    exact ⟨fun _ => .inr hreleased, fun _ => by omega⟩
  · rename_i hreleased
    refine ⟨fun hran => .inl (by omega), ?_⟩
    rintro (hadded | hreleased')
    · omega
    · exact absurd hreleased' hreleased

end Registered

end Cluster
end SeriesExec
