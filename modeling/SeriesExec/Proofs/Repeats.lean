import SeriesExec.Proofs.Feeding
import SeriesExec.Proofs.Pipelines
import SeriesExec.Proofs.Sequential

/-!
# Repeats — followers of tasks that end more than once

A result is kept once it is there, but a follower is told of every end of a parent, and a task that
is handed over twice ends twice.  This file defines `Cluster.heard`, the number of ends that a
follower is told of.

Main statement: a follower is released once it has been told of as many ends as it has parents,
and all parents have results by then exactly if none of them has ended twice (`released_by_ends`).
-/

namespace SeriesExec

/-- Operators over the results of all parents do not miss a result. -/
theorem Task.fedResult_ne_parentWithoutResult [PatternLibrary] (operators : List Operator)
    (source : Option RowStream) (rs : List TaskResult) (p : TaskId) :
    Task.fedResult operators source rs ≠ .error (.fault (.parentWithoutResult p)) := by
  intro hfault
  rcases Task.fedResult_eq_error hfault with ⟨e, _, he⟩ | ⟨_, hraised⟩
  · cases he
  · cases hraised with
    | inner h => cases h

namespace Cluster

open Traffic Roster

variable {s : Setup} {before init rest events : List Event} {e : Event}
  {operators : List Operator} {source : Option RowStream} {parents : List TaskId} {f : TaskId}
  {c c' c₀ c₁ c₂ c₃ : Cluster}

section

variable [PatternLibrary]

/-- The number of ends of `parents` that a history reports, each as often as it happens. -/
def heard (c : Cluster) (parents : List TaskId) (events : List Event) : Nat :=
  (c.endings events).countP (c.roster.reports parents)

/-! ## What one event ends -/

/-- An event ends one task at most. -/
theorem length_endedBy_le_one (hc : c.Sound) (e : Event) : (c.endedBy e).length ≤ 1 := by
  unfold endedBy
  split
  · exact Nat.zero_le 1
  · rename_i c' hafter
    rw [List.length_append, List.length_map, List.length_drop]
    by_cases hran : e.ran = []
    · rcases orderly_transfer_of_after? hc hafter with ⟨new, _, htransfer, _⟩
      have hfinished : c'.finished.length ≤ c.finished.length + 1 := htransfer.finished_length_le
      rw [hran, List.length_nil]
      omega
    · -- A memory worker ends no delivery.
      obtain ⟨t, elapsed, rfl⟩ : ∃ t elapsed, e = .moved (.runMemory t elapsed) := by
        unfold Event.ran at hran
        split at hran
        · exact ⟨_, _, rfl⟩
        · exact absurd rfl hran
      have hfinished : c'.finished = c.finished :=
        congrArg Traffic.finished (traffic_runMemory? hafter)
      rw [hfinished, Nat.sub_self]
      exact Nat.le_refl 1

theorem heard_snoc (hinit : c₁.run? init = some c₂) (hafter : c₂.after? e = some c₃) :
    c₁.heard parents (init ++ [e]) =
      c₁.heard parents init + (c₂.endedBy e).countP (c₁.roster.reports parents) := by
  rw [heard, endings, trace_snoc _ hinit hafter, List.countP_append, heard, endings]

theorem heard_snoc_le (hc : c₂.Sound) (hinit : c₁.run? init = some c₂)
    (hafter : c₂.after? e = some c₃) :
    c₁.heard parents (init ++ [e]) ≤ c₁.heard parents init + 1 := by
  rw [heard_snoc hinit hafter]
  exact Nat.add_le_add_left (Nat.le_trans List.countP_le_length (length_endedBy_le_one hc e)) _

/-! ## The event that releases a follower -/

/-- If the parents of a follower have results, these decide any result it gets later. -/
theorem Served.run? (hc : c.Coherent) (hfed : c.roster.Fed f operators source parents)
    (hresults : ∀ p ∈ parents, (c.roster.result? p).isSome)
    (hserved : Served c.roster f operators source parents)
    (hevents : ∀ e ∈ events, e.isHandsOff = true) (hrun : c.run? events = some c') :
    Served c'.roster f operators source parents := by
  induction events generalizing c with
  | nil =>
    injection hrun with hrun
    exact hrun ▸ hserved
  | cons e rest ih =>
    rcases Option.bind_eq_some_iff.mp hrun with ⟨c₁, hafter, hrest⟩
    have he := hevents e List.mem_cons_self
    rcases exists_explains_of_after? hc hafter with ⟨ls, hexplains⟩
    refine ih (hc.after? hafter) (hexplains.changes.fed (hexplains.byHand_notMem he) hfed) ?_
      (hserved.after? hc hfed (fun _ => hresults) he hafter)
      (fun e he => hevents e (List.mem_cons_of_mem _ he)) hrest
    intro p hp
    rcases Option.isSome_iff_exists.mp (hresults p hp) with ⟨r, hr⟩
    exact Option.isSome_of_eq_some (hexplains.changes.later.result? hr)

namespace Registered

variable (h : c₁.Registered f operators source parents) (hinit : c₁.run? init = some c₂)
  (hafter : c₂.after? e = some c₃) (hevents : ∀ e' ∈ init ++ [e], e'.isHandsOff = true)
include h hinit hafter hevents

/-- A follower is released by the event with which it is told of as many ends as it has parents. -/
theorem mem_arrivedBy_iff (hadded : f ∉ c₁.additions (init ++ [e])) : f ∈ c₂.arrivedBy e ↔
    c₁.heard parents init < parents.length ∧
      c₁.heard parents (init ++ [e]) = parents.length := by
  have hfirst : ∀ e' ∈ init, e'.isHandsOff = true :=
    fun e' he' => hevents e' (List.mem_append_left _ he')
  have hrun := run?_snoc.mpr ⟨c₂, hinit, hafter⟩
  have hle : c₁.heard parents (init ++ [e]) ≤ c₁.heard parents init + 1 :=
    heard_snoc_le (h.coherent.run? hinit).sound hinit hafter
  -- The follower has come as often as it was released, after the event and before it.
  have hall := count_arrivals h.coherent hevents hrun f
  have hearlier := count_arrivals h.coherent hfirst hinit f
  have hsplit : (c₁.arrivals (init ++ [e])).count f =
      (c₁.arrivals init).count f + (c₂.arrivedBy e).count f := by
    rw [arrivals, trace_snoc _ hinit hafter, List.count_append, arrivals]
  have hnone := List.count_eq_zero.mpr hadded
  have hnoneEarlier := List.count_eq_zero.mpr (notMem_additions_of_append hinit hadded)
  have hcredit := h.credit_eq hevents hrun
  have hcreditEarlier := h.credit_eq hfirst hinit
  rw [← heard] at hcredit hcreditEarlier
  rw [h.credit_eq_zero] at hall hearlier
  rw [← List.count_pos_iff]
  split at hcredit <;> split at hcreditEarlier <;> omega

end Registered

namespace Registered

variable (h : c₁.Registered f operators source parents)
  (hevents : ∀ e ∈ events, e.isHandsOff = true) (hrun : c₁.run? events = some c)
include h hevents hrun

/-- Once a follower has been told of as many ends as it has parents, all of them have ended exactly
if none of them has ended twice. -/
theorem done_iff_of_heard (hheard : c₁.heard parents events = parents.length)
    (hunended : ∀ p ∈ parents, (∀ y, c₁.roster.task? p = some y → y.isGlobal = false) ∧
      c₁.roster.result? p = none) :
    (∀ p ∈ parents, c.isDone p = true) ↔ ∀ p ∈ parents, (c₁.endings events).count p ≤ 1 := by
  constructor
  · intro hdone
    have hreported : ∀ p ∈ parents,
        p ∈ c₁.endings events ∧ c₁.roster.reports parents p = true := by
      intro p hp
      obtain ⟨hglobal, hnone⟩ := hunended p hp
      refine ⟨h.mem_endings hevents hrun hp hglobal hnone (hdone p hp), ?_⟩
      rcases isDone_iff.mp (hdone p hp) with ⟨x, hx, hsync, _⟩
      rw [← h.fed.reports_eq (later_of_run? h.coherent hrun), reports, hx, Option.any_some, hsync]
      simpa using hp
    exact count_le_one_of_countP_le h.nodup hreported (Nat.le_of_eq hheard)
  · intro honce p hp
    exact isDone_iff.mpr
      (h.parents_of_reported hevents hrun honce (Nat.le_of_eq hheard.symm) p hp)

/-- A follower that has not been told of enough ends has not run. -/
theorem result?_eq_none (hadded : f ∉ c₁.additions events)
    (hheard : c₁.heard parents events < parents.length) : c.result? f = none := by
  have hbalance := h.balance hevents hrun
  rw [List.count_eq_zero.mpr hadded, h.credit_eq hevents hrun, ← heard,
    if_neg (fun hreleased => Nat.not_le_of_lt hheard hreleased.2)] at hbalance
  have hran : f ∉ c₁.runs events := List.count_eq_zero.mp (by omega)
  rw [← h.isSome_result?_iff_mem_runs hevents hrun, result?_roster] at hran
  exact Option.not_isSome_iff_eq_none.mp hran

end Registered

/-- What releases a follower, if nobody adds it to the memory stage and its parents have not ended
when it is made:

* an event does so exactly if with it the follower has been told of as many ends as it has parents,
  where it is told of each end of each parent;
* before that it has no result;
* all its parents have ended by then exactly if none of them has ended twice;
* if so, any result it gets later is that of its operators over the results of its parents, none of
  which is missing. -/
theorem released_by_ends (hbefore : (build s).run? before = some c₀)
    (hfollow : c₀.handle (.follow operators parents) = (c₁, .made f))
    (hinit : c₁.run? init = some c₂) (hafter : c₂.after? e = some c₃)
    (hrest : c₃.run? rest = some c)
    (hhands : ∀ e' ∈ before ++ (init ++ e :: rest), e'.isHandsOff = true)
    (hparents : ∀ p ∈ parents, c₀.isAhead p = true)
    (hadded : f ∉ c₁.additions (init ++ e :: rest)) :
    (f ∈ c₂.arrivedBy e ↔ c₁.heard parents init < parents.length ∧
      c₁.heard parents (init ++ [e]) = parents.length) ∧
    (f ∈ c₂.arrivedBy e → c₂.result? f = none ∧
      ((∀ p ∈ parents, c₃.isDone p = true) ↔
        ∀ p ∈ parents, (c₁.endings (init ++ [e])).count p ≤ 1) ∧
      ((∀ p ∈ parents, (c₁.endings (init ++ [e])).count p ≤ 1) → ∀ r, c.result? f = some r →
        (∃ rs, parents.map c.result? = rs.map some ∧ r = Task.fedResult operators none rs) ∧
          ∀ p, r ≠ .error (.fault (.parentWithoutResult p)))) := by
  have hregistered := registered_of_run? hbefore hfollow
  have hrun := run?_snoc.mpr ⟨c₂, hinit, hafter⟩
  rw [List.append_cons] at hhands hadded
  have hreleasing : ∀ e' ∈ init ++ [e], e'.isHandsOff = true := by
    intro e' he'
    exact hhands e' (List.mem_append_right _ (List.mem_append_left _ he'))
  have hfirst : ∀ e' ∈ init, e'.isHandsOff = true := by
    intro e' he'
    exact hreleasing e' (List.mem_append_left _ he')
  have hlast : ∀ e' ∈ rest, e'.isHandsOff = true := by
    intro e' he'
    exact hhands e' (List.mem_append_right _ (List.mem_append_right _ he'))
  have haddedThen := notMem_additions_of_append hrun hadded
  have haddedBefore := notMem_additions_of_append hinit haddedThen
  have hiff := hregistered.mem_arrivedBy_iff hinit hafter hreleasing haddedThen
  refine ⟨hiff, fun hreleased => ?_⟩
  obtain ⟨hbelow, hheard⟩ := hiff.mp hreleased
  have hdone := hregistered.done_iff_of_heard hreleasing hrun hheard
    fun p hp => unended_of_follow hfollow hp (hparents p hp)
  refine ⟨hregistered.result?_eq_none hfirst hinit haddedBefore hbelow, hdone, ?_⟩
  intro honce r hr
  have hcoherent := hregistered.coherent.run? hrun
  -- What the follower has been fed with is decided at its release, whatever ends after that.
  have hresults : ∀ p ∈ parents, (c₃.roster.result? p).isSome := by
    intro p hp
    rcases isDone_iff.mp (hdone.mpr honce p hp) with ⟨x, hx, _, hresult⟩
    rwa [Roster.result?, hx, Option.bind_some]
  have hserved := (hregistered.served hreleasing hrun haddedThen honce).run? hcoherent
    (hregistered.fed_of_run? hreleasing hrun).1 hresults hlast hrest
  obtain ⟨rs, hrs, rfl⟩ := hserved r ((result?_roster c f).trans hr)
  refine ⟨⟨rs, (List.map_congr_left fun p _ => (result?_roster c p).symm).trans hrs, rfl⟩, ?_⟩
  exact Task.fedResult_ne_parentWithoutResult operators none rs

end

/-- Two reads of one unit are made. -/
def pairReads : List Event :=
  [.asked (.notifyUnit none (some (StorageUnit.newMaster "unit" 1))),
    .asked (.newStorage [.project ["*"]] sampleFragment true false none),
    .asked (.newStorage [.project ["*"]] sampleFragment true false none)]

/-- The first read is handed over and ends; then the worker takes a delivery of the task `t`. -/
def readThen (t : TaskId) : List Event :=
  [.asked (.commit 0), .asked (.commit t), .moved (.resolve "unit"), .moved (.dispatch "unit"),
    .moved (.dispatch "unit"), .moved (.start 1), .moved (.complete 0 Duration.zero),
    .moved (.start 1)]

/-- The second delivery ends. -/
def secondEnd : Event :=
  .moved (.complete 1 Duration.zero)

/-- The follower of the two reads runs. -/
def unionRun : List Event :=
  [.moved .admitMemory, .moved .startMemory, .moved (.runMemory 2 Duration.zero)]

/-- The first read is handed over once more, and ends. -/
def readAgain : List Event :=
  [.asked (.commit 0), .moved (.dispatch "unit"), .moved (.start 1),
    .moved (.complete 2 Duration.zero)]

/-- A parent that ends again does no harm once its follower has been released. -/
theorem released_by_ends_sample : ∃ c₀ c₁ c₂ c₃ c,
    (build memorySetup).run? pairReads = some c₀ ∧
    c₀.handle (.follow [.union] [0, 1]) = (c₁, .made 2) ∧ c₁.run? (readThen 1) = some c₂ ∧
    c₂.after? secondEnd = some c₃ ∧ c₃.run? (unionRun ++ readAgain) = some c ∧
    2 ∈ c₂.arrivedBy secondEnd ∧ (∀ p ∈ [0, 1], c₃.isDone p = true) ∧
    ∃ rs, [0, 1].map c.result? = rs.map some ∧
      c.result? 2 = some (Task.fedResult [.union] none rs) := by
  obtain ⟨c₀, hbefore, hmade, hahead, hadded, hheard, honce, c₂, hinit, c₃, hafter, c, hrest,
      hsome⟩ :
      ∃ c₀ ∈ (build memorySetup).run? pairReads,
        (c₀.handle (.follow [.union] [0, 1])).2.made? = some 2 ∧
        (∀ p ∈ [0, 1], c₀.isAhead p = true) ∧
        2 ∉ (c₀.handle (.follow [.union] [0, 1])).1.additions
          (readThen 1 ++ secondEnd :: (unionRun ++ readAgain)) ∧
        ((c₀.handle (.follow [.union] [0, 1])).1.heard [0, 1] (readThen 1) < 2 ∧
          (c₀.handle (.follow [.union] [0, 1])).1.heard [0, 1] (readThen 1 ++ [secondEnd]) = 2) ∧
        (∀ p ∈ [0, 1], ((c₀.handle (.follow [.union] [0, 1])).1.endings
          (readThen 1 ++ [secondEnd])).count p ≤ 1) ∧
        ∃ c₂ ∈ (c₀.handle (.follow [.union] [0, 1])).1.run? (readThen 1),
          ∃ c₃ ∈ c₂.after? secondEnd, ∃ c ∈ c₃.run? (unionRun ++ readAgain),
            (c.result? 2).isSome := by
    decide
  have hfollow : c₀.handle (.follow [.union] [0, 1]) = (_, .made 2) :=
    Prod.ext rfl (Reply.eq_of_made? hmade)
  obtain ⟨hiff, hreleased⟩ :=
    released_by_ends hbefore hfollow hinit hafter hrest (by decide) hahead hadded
  have harrived := hiff.mpr hheard
  obtain ⟨-, hdone, hresult⟩ := hreleased harrived
  obtain ⟨r, hr⟩ := Option.isSome_iff_exists.mp hsome
  obtain ⟨⟨rs, hrs, rfl⟩, -⟩ := hresult honce r hr
  exact ⟨c₀, _, c₂, c₃, c, hbefore, hfollow, hinit, hafter, hrest, harrived, hdone.mpr honce, rs,
    hrs, hr⟩

/-- The parent that a result blames for having none. -/
def missingParent? : TaskResult → Option TaskId
  | .error (.fault (.parentWithoutResult p)) => some p
  | _ => none

theorem eq_of_missingParent? {r : Option TaskResult} {p : TaskId}
    (h : r.bind missingParent? = some p) : r = some (.error (.fault (.parentWithoutResult p))) := by
  obtain ⟨r, rfl, hr⟩ := Option.bind_eq_some_iff.mp h
  unfold missingParent? at hr
  split at hr
  · rw [Option.some.inj hr]
  · cases hr

/-- A parent that ends twice releases its follower without the other one, and the follower fails. -/
theorem released_without_parent : ∃ c₀ c₁ c₂ c₃ c,
    (build memorySetup).run? pairReads = some c₀ ∧
    c₀.handle (.follow [.union] [0, 1]) = (c₁, .made 2) ∧
    (∀ p ∈ [0, 1], c₀.isAhead p = true) ∧ c₁.run? (readThen 0) = some c₂ ∧
    c₂.after? secondEnd = some c₃ ∧ 2 ∈ c₂.arrivedBy secondEnd ∧ c₃.result? 1 = none ∧
    c₃.run? unionRun = some c ∧ c.result? 2 = some (.error (.fault (.parentWithoutResult 1))) := by
  obtain ⟨c₀, hbefore, hmade, hahead, c₂, hinit, c₃, hafter, harrived, hmissing, c, hrest,
      hresult⟩ :
      ∃ c₀ ∈ (build memorySetup).run? pairReads,
        (c₀.handle (.follow [.union] [0, 1])).2.made? = some 2 ∧
        (∀ p ∈ [0, 1], c₀.isAhead p = true) ∧
        ∃ c₂ ∈ (c₀.handle (.follow [.union] [0, 1])).1.run? (readThen 0),
          ∃ c₃ ∈ c₂.after? secondEnd, 2 ∈ c₂.arrivedBy secondEnd ∧ c₃.result? 1 = none ∧
            ∃ c ∈ c₃.run? unionRun, (c.result? 2).bind missingParent? = some 1 := by
    decide
  exact ⟨c₀, _, c₂, c₃, c, hbefore, Prod.ext rfl (Reply.eq_of_made? hmade), hahead, hinit, hafter,
    harrived, hmissing, hrest, eq_of_missingParent? hresult⟩

end Cluster
end SeriesExec
