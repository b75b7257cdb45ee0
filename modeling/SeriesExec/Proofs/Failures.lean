import Mathlib.Logic.Function.Iterate
import Mathlib.Logic.Relation
import SeriesExec.Proofs.Backpressure
import SeriesExec.Proofs.Lineage
import SeriesExec.Proofs.Pipelines

/-!
# Failures — how they reach the descendants of a task

A memory task that has a failed parent fails because of it, and wraps the error of the parent.  So
an error travels down the followers of a task and is wrapped once on each of them.  This file
defines `Cluster.FailedAlone`: a task failed, and not because of a parent.

Main statement: the failures of a history reach exactly the descendants of those tasks that failed
on their own (`failures_reach_descendants`).  It rests on what one link does: a memory task fails
because of a parent exactly if it has a failed one (`parentFailed_iff`), and then it wraps the error
of such a parent (`exists_parent_of_parentFailed`).
-/

namespace SeriesExec

open Traffic Roster

theorem Pipeline.Raised.kind_ne {e : Error} (h : Pipeline.Raised e) : e.kind ≠ .parentFailed := by
  cases h with
  | inner h => rw [h.kind_eq]; exact ErrorKind.noConfusion
  | unexpectedOperator operator => exact ErrorKind.noConfusion

namespace Cluster

variable {s : Setup} {events : List Event} {p f : TaskId} {c : Cluster} {r : TaskResult}
  {err : Error}

/-- The task failed, and not because of a parent. -/
def FailedAlone (c : Cluster) (t : TaskId) (err : Error) : Prop :=
  c.result? t = some (.error err) ∧ err.kind ≠ .parentFailed

/-! ## One link -/

section Link

variable [PatternLibrary] (hrun : (build s).run? events = some c)
  (hhands : ∀ e ∈ events, e.isHandsOff = true)
include hrun

theorem hasMemory_of_feeds (h : c.Feeds p f) : c.roster.HasMemory f := by
  obtain ⟨x, hx, hfollower⟩ := Option.bind_eq_some_iff.mp h
  exact ((coherent_build s).run? hrun).typed.followers p x.core f (task?_roster hx) hfollower

include hhands

/-- A storage task fails in a driver or because it was refused, never because of a parent. -/
theorem kind_ne_of_hasStorage (hstorage : c.roster.HasStorage f)
    (herr : c.result? f = some (.error err)) : err.kind ≠ .parentFailed := by
  obtain ⟨y, hy, hkind⟩ := hstorage
  obtain ⟨x, hx, rfl⟩ := exists_task?_of_roster hy
  obtain ⟨e, he, _, hresult⟩ :=
    exists_ending_of_result? (storageResults_of_run? (setsResult_of_isHandsOff hhands) hrun) hx
      ((Task.core_isStorage x).symm.trans hkind) herr
  have hclassified := classified_of_run? hrun e he err hresult
  intro hparent
  rw [hparent] at hclassified
  exact absurd hclassified (by decide)

variable (honce : Once s events c)
include honce

/-- What feeds a task that has a result has one too, and is a storage or a memory task. -/
theorem result_of_feeds (hfeeds : c.Feeds p f) (hr : c.result? f = some r) :
    (c.result? p).isSome ∧ (c.roster.HasStorage p ∨ c.roster.HasMemory p) := by
  obtain ⟨operators, source, parents, hparents, hserved⟩ :=
    exists_lineage hrun hhands honce (hasMemory_of_feeds hrun hfeeds)
  obtain ⟨hkinds, rs, hrs, _⟩ := hserved r hr
  have hp := (hparents p).mp hfeeds
  refine ⟨?_, hkinds p hp⟩
  obtain ⟨r', _, hr'⟩ := List.mem_map.mp (hrs ▸ List.mem_map_of_mem hp : c.result? p ∈ rs.map some)
  exact hr' ▸ rfl

/-- A memory task that fails because of a parent wraps the error of one that has failed. -/
theorem exists_parent_of_parentFailed (hf : c.roster.HasMemory f)
    (herr : c.result? f = some (.error err)) (hkind : err.kind = .parentFailed) :
    ∃ p e, c.Feeds p f ∧ c.result? p = some (.error e) ∧ err = .parentFailed e := by
  obtain ⟨operators, source, parents, hparents, hserved⟩ := exists_lineage hrun hhands honce hf
  obtain ⟨_, rs, hrs, heq⟩ := hserved _ herr
  rcases Task.fedResult_eq_error heq.symm with ⟨e, hfirst, rfl⟩ | ⟨_, hraised⟩
  · have hmem : some (.error e) ∈ parents.map c.result? :=
      hrs ▸ List.mem_map_of_mem (Task.mem_of_firstError? hfirst)
    obtain ⟨p, hp, he⟩ := List.mem_map.mp hmem
    exact ⟨p, e, (hparents p).mpr hp, he, rfl⟩
  · exact absurd hkind hraised.kind_ne

/-- A memory task with a failed parent fails because of a parent. -/
theorem parentFailed_of_feeds {e : Error} (hfeeds : c.Feeds p f)
    (he : c.result? p = some (.error e)) (hr : c.result? f = some r) :
    ∃ err, r = .error err ∧ err.kind = .parentFailed := by
  obtain ⟨operators, source, parents, hparents, hserved⟩ :=
    exists_lineage hrun hhands honce (hasMemory_of_feeds hrun hfeeds)
  obtain ⟨_, rs, hrs, heq⟩ := hserved r hr
  have hmem : c.result? p ∈ rs.map some := hrs ▸ List.mem_map_of_mem ((hparents p).mp hfeeds)
  obtain ⟨r', hr', hsome⟩ := List.mem_map.mp hmem
  obtain rfl := Option.some.inj (hsome.trans he)
  cases hfirst : Task.firstError? rs with
  | none => exact absurd hr' (Task.notMem_of_firstError? hfirst)
  | some e' => exact ⟨.parentFailed e', by rw [heq, Task.fedResult, hfirst], rfl⟩

/-- A memory task fails because of a parent exactly if it has one that has failed. -/
theorem parentFailed_iff (hf : c.roster.HasMemory f) (hr : c.result? f = some r) :
    (∃ err, r = .error err ∧ err.kind = .parentFailed) ↔
      ∃ p e, c.Feeds p f ∧ c.result? p = some (.error e) := by
  constructor
  · rintro ⟨err, rfl, hkind⟩
    obtain ⟨p, e, hfeeds, he, _⟩ := exists_parent_of_parentFailed hrun hhands honce hf hr hkind
    exact ⟨p, e, hfeeds, he⟩
  · rintro ⟨p, e, hfeeds, he⟩
    exact parentFailed_of_feeds hrun hhands honce hfeeds he hr

/-! ## Chains of links -/

/-- Every descendant of a failed task that has a result failed because of a parent. -/
theorem parentFailed_of_descends {e : Error} (he : c.result? p = some (.error e))
    (hdescends : Relation.TransGen c.Feeds p f) (hr : c.result? f = some r) :
    ∃ err, r = .error err ∧ err.kind = .parentFailed := by
  -- Along the chain: a link hands the failure on, and a task with a result has parents with one.
  induction hdescends generalizing r with
  | single hfeeds => exact parentFailed_of_feeds hrun hhands honce hfeeds he hr
  | tail _ hfeeds ih =>
    obtain ⟨r', hr'⟩ := Option.isSome_iff_exists.mp (result_of_feeds hrun hhands honce hfeeds hr).1
    obtain ⟨err, rfl, _⟩ := ih hr'
    exact parentFailed_of_feeds hrun hhands honce hfeeds hr' hr

/-- An error that arose because of a parent is the error of an ancestor that failed on its own,
wrapped once for each link from there. -/
theorem exists_origin (hf : c.roster.HasMemory f) (herr : c.result? f = some (.error err))
    (hkind : err.kind = .parentFailed) : ∃ n p own, err = Error.parentFailed^[n + 1] own ∧
      Relation.TransGen c.Feeds p f ∧ c.FailedAlone p own := by
  -- Each link takes one wrapping off, so the induction is on the error.
  induction err generalizing f with
  | parentFailed e ih =>
    obtain ⟨p, e', hfeeds, hp, hwrapped⟩ :=
      exists_parent_of_parentFailed hrun hhands honce hf herr hkind
    obtain rfl := Error.parentFailed.inj hwrapped
    by_cases hown : e.kind = .parentFailed
    · have hmemory : c.roster.HasMemory p :=
        (result_of_feeds hrun hhands honce hfeeds herr).2.resolve_left fun hstorage =>
          kind_ne_of_hasStorage hrun hhands hstorage hp hown
      obtain ⟨n, q, own, rfl, hdescends, halone⟩ := ih hmemory hp hown
      exact ⟨n + 1, q, own, (Function.iterate_succ_apply' _ _ _).symm, hdescends.tail hfeeds,
        halone⟩
    · exact ⟨0, p, e, rfl, .single hfeeds, hp, hown⟩
  | _ => cases hkind

/-- How failures travel, in a history in which no task is handed over twice and tasks are left to
loops and workers:

* a memory task that has a result failed because of a parent exactly if one of its parents failed;
* a storage task never fails because of a parent;
* every descendant of a failed task that has a result failed because of a parent;
* the error of a task that failed because of a parent is the unchanged error of an ancestor that
  failed on its own, wrapped finitely often;
* so a memory task none of whose ancestors failed on its own never fails because of a parent. -/
theorem failures_reach_descendants :
    (∀ f x r, c.task? f = some x → x.isMemory = true → c.result? f = some r →
      ((∃ err, r = .error err ∧ err.kind = .parentFailed) ↔
        ∃ p e, c.Feeds p f ∧ c.result? p = some (.error e))) ∧
    (∀ t x err, c.task? t = some x → x.isStorage = true → c.result? t = some (.error err) →
      err.kind ≠ .parentFailed) ∧
    (∀ p f e r, c.result? p = some (.error e) → Relation.TransGen c.Feeds p f →
      c.result? f = some r → ∃ err, r = .error err ∧ err.kind = .parentFailed) ∧
    (∀ f x err, c.task? f = some x → x.isMemory = true → c.result? f = some (.error err) →
      err.kind = .parentFailed → ∃ n p own, err = Error.parentFailed^[n + 1] own ∧
        Relation.TransGen c.Feeds p f ∧ c.FailedAlone p own) ∧
    (∀ f x err, c.task? f = some x → x.isMemory = true →
      (∀ p own, Relation.TransGen c.Feeds p f → ¬ c.FailedAlone p own) →
        c.result? f = some (.error err) → err.kind ≠ .parentFailed) := by
  have hmemory : ∀ {f x}, c.task? f = some x → x.isMemory = true → c.roster.HasMemory f :=
    fun {f x} hx hmemory => ⟨x.core, task?_roster hx, x.core_isMemory.trans hmemory⟩
  refine ⟨fun f x r hx hm hr => parentFailed_iff hrun hhands honce (hmemory hx hm) hr,
    fun t x err hx hstorage herr => ?_,
    fun p f e r he hdescends hr => parentFailed_of_descends hrun hhands honce he hdescends hr,
    fun f x err hx hm herr hkind =>
      exists_origin hrun hhands honce (hmemory hx hm) herr hkind,
    fun f x err hx hm hnone herr hkind => ?_⟩
  · exact kind_ne_of_hasStorage hrun hhands
      ⟨x.core, task?_roster hx, x.core_isStorage.trans hstorage⟩ herr
  · obtain ⟨n, p, own, _, hdescends, halone⟩ :=
      exists_origin hrun hhands honce (hmemory hx hm) herr hkind
    exact hnone p own hdescends halone

end Link

theorem failures_reach_descendants_sample : ∃ c,
    (build sampleSetup).run? (chainPlan ++ chainEnds) = some c ∧
    ∃ err n p own, c.result? 3 = some (.error err) ∧ err = Error.parentFailed^[n + 1] own ∧
      Relation.TransGen c.Feeds p 3 ∧ c.FailedAlone p own := by
  obtain ⟨c, hrun, ⟨hdelivered, hnodup, hsources⟩, ⟨hfirst, hsecond⟩, hfailed, ⟨x, hx, hm⟩,
      hresult⟩ :
      ∃ c ∈ (build sampleSetup).run? (chainPlan ++ chainEnds),
        ((c.traffic.deliveries.map Delivery.task).Nodup ∧
          ((build sampleSetup).additions (chainPlan ++ chainEnds)).Nodup ∧
          ∀ t ∈ (build sampleSetup).additions (chainPlan ++ chainEnds),
            (c.task? t).any Task.hasSource) ∧
        ((c.task? 0).bind Task.follower = some 2 ∧ (c.task? 2).bind Task.follower = some 3) ∧
        ((c.result? 0).any fun r => !r.isOk) = true ∧
        (∃ x ∈ c.task? 3, x.isMemory = true) ∧ (c.result? 3).isSome = true := by
    decide
  obtain ⟨_, _, hdescendants, horigin, _⟩ :=
    failures_reach_descendants hrun (by decide) ⟨hdelivered, hnodup, hsources⟩
  obtain ⟨r₀, hr₀, herror⟩ := (Option.any_eq_true _ _).mp hfailed
  obtain ⟨r, hr⟩ := Option.isSome_iff_exists.mp hresult
  cases r₀ with
  | ok _ => cases herror
  | error e =>
    obtain ⟨err, rfl, hkind⟩ :=
      hdescendants 0 3 e r hr₀ (Relation.TransGen.tail (.single hfirst) hsecond) hr
    obtain ⟨n, p, own, hwrapped, hdescends, halone⟩ := horigin 3 x err hx hm hr hkind
    exact ⟨c, hrun, err, n, p, own, hr, hwrapped, hdescends, halone⟩

end Cluster
end SeriesExec
