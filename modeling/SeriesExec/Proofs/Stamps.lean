import SeriesExec.Proofs.Changes
import SeriesExec.Proofs.TaskFrames

/-!
# Stamps — which unit took a task first

A loop that takes a delivery stamps its task with the unit, unless the task has a stamp already, and
marks it as one on a dummy unit or not, whatever the mark was.  Nothing else touches stamps and
marks.  This file defines:

* `Task.stamp?` and `Cluster.stamp?` — the unit that took a task first;
* `Task.mark` and `Cluster.mark` — the stamp, and whether the unit that took the task last is a
  dummy unit;
* `Cluster.Stamped` — what stamps and deliveries know of each other.

Main statements: what a loop does to stamps and marks (`mark_dispatch`), and that nothing else does
anything to them (`mark_handle`, `mark_step?`); a task that is delivered once, and has left the
queue of its unit, is stamped with that unit (`Stamped.stamp?_eq`).
-/

namespace SeriesExec

open Traffic Roster

namespace Task

/-- The unit that took the task first. -/
def stamp? (x : Task) : Option UnitId :=
  x.storage?.bind StorageShape.stamp

/-- The part of the data that a storage task is about. -/
def fragment? (x : Task) : Option Fragment :=
  x.storage?.map StorageShape.fragment

theorem fragment?_origin (x : Task) : x.origin.fragment? = x.fragment? := by
  rcases x with ⟨_, _, _, _, _, _, _ | _ | _⟩ <;> rfl

theorem fragment?_core (x : Task) : x.core.fragment? = x.fragment? := by
  rcases x with ⟨_, _, _, _, _, _, _ | _ | _⟩ <;> rfl

theorem Later.fragment?_eq {x y : Task} (h : x.Later y) : y.fragment? = x.fragment? := by
  rw [← fragment?_origin, h.origin, fragment?_origin]

/-- The stamp of a storage task, and whether its last unit is a dummy unit.  Other tasks have no
stamp. -/
def mark (x : Task) : Option UnitId × Bool :=
  (x.stamp?, x.storage?.any StorageShape.onDummy)

/-- Only the stamp of a loop touches the mark of a task. -/
theorem lasting_mark : Lasting mark (none, false) where
  setResult _ _ := rfl
  setSpan _ _ := rfl
  setFollower _ _ := rfl
  countParent x := by rcases x with ⟨_, _, _, _, _, _, _ | _ | _⟩ <;> rfl
  forgetParents x := by rcases x with ⟨_, _, _, _, _, _, _ | _ | _⟩ <;> rfl
  newStorage _ _ _ _ _ := rfl
  newGlobal _ := rfl

/-- The first stamp stays, and the last mark. -/
theorem mark_stampUnit {x : Task} (hx : x.isStorage = true) (u : UnitId) (isDummy : Bool) :
    (x.stampUnit u isDummy).mark = (x.stamp?.or (some u), isDummy) := by
  rcases x with ⟨_, _, _, _, _, _, _ | _ | _⟩
  · rfl
  · cases hx
  · cases hx

end Task

namespace Cluster

variable {c c' : Cluster}

/-- The unit that took a task first. -/
def stamp? (c : Cluster) (t : TaskId) : Option UnitId :=
  (c.task? t).bind Task.stamp?

/-- The stamp of a task, and whether its last unit is a dummy unit. -/
def mark (c : Cluster) (t : TaskId) : Option UnitId × Bool :=
  ((c.task? t).map Task.mark).getD (none, false)

theorem mark_fst (c : Cluster) (t : TaskId) : (c.mark t).1 = c.stamp? t := by
  rw [mark, stamp?]
  cases c.task? t <;> rfl

/-- What leaves marks alone leaves stamps alone. -/
theorem stamp?_of_mark (h : c'.mark = c.mark) : c'.stamp? = c.stamp? :=
  funext fun t => by rw [← mark_fst, ← mark_fst, h]

/-! ## What leaves marks alone -/

/-- No request touches a stamp or a mark. -/
theorem mark_handle [PatternLibrary] (c : Cluster) (r : Request) : (c.handle r).1.mark = c.mark :=
  trait_handle Task.lasting_mark.steady c (.inr ⟨fun _ _ => rfl, fun _ _ => rfl⟩)
    (.inr Task.lasting_mark.setFollower)

/-- No move but that of a loop that takes a delivery touches a stamp or a mark. -/
theorem mark_step? [PatternLibrary] {s : Step} (hs : ∀ u, s ≠ .dispatch u)
    (h : c.step? s = some c') : c'.mark = c.mark :=
  trait_step? Task.lasting_mark.steady (.inl hs) h

/-- A loop stamps and marks the task of the delivery that it takes. -/
theorem mark_dispatch {l : UnitLoop} {d : Delivery} {rest : List Delivery} {x : Task}
    (hx : c.task? d.task = some x) (hstorage : x.isStorage = true)
    (h : c.Dispatch l d rest c') (t : TaskId) :
    c'.mark t = if t = d.task then ((c.stamp? t).or (some l.id), l.isDummy) else c.mark t := by
  have htaken : (c.takeFirst l d rest).mark t =
      if t = d.task then ((c.stamp? t).or (some l.id), l.isDummy) else c.mark t := by
    -- Only the stamping looks at tasks; what is decided after it leaves marks alone.
    have htask : (c.modifyUnit l.id fun l => { l with queue := ⟨rest⟩ }).task? t = c.task? t := rfl
    rw [mark, takeFirst, task?_modifyTask, htask, stamp?, mark]
    by_cases ht : t = d.task
    · subst ht
      rw [if_pos rfl, if_pos rfl, hx, Option.map_some, Option.map_some, Option.getD_some,
        Task.mark_stampUnit hstorage, Option.bind_some]
    · rw [if_neg ht, if_neg ht]
  rw [← htaken]
  cases h with
  | notReady _ => exact congrFun (trait_settleTask Task.lasting_mark.steady _ d.task _) t
  | overloaded _ _ _ => exact congrFun (trait_settleTask Task.lasting_mark.steady _ d.task _) t
  | submitted _ _ _ => rfl

theorem stamp?_close (c : Cluster) (r : Run) (elapsed : Duration) :
    (c.close r elapsed).stamp? = c.stamp? :=
  stamp?_of_mark (trait_close Task.lasting_mark.steady c r elapsed)

theorem stamp?_handle [PatternLibrary] (c : Cluster) (r : Request) :
    (c.handle r).1.stamp? = c.stamp? :=
  stamp?_of_mark (mark_handle c r)

theorem stamp?_step? [PatternLibrary] {s : Step} (hs : ∀ u, s ≠ .dispatch u)
    (h : c.step? s = some c') : c'.stamp? = c.stamp? :=
  stamp?_of_mark (mark_step? hs h)

theorem stamp?_dispatch {l : UnitLoop} {d : Delivery} {rest : List Delivery} {x : Task}
    (hx : c.task? d.task = some x) (hstorage : x.isStorage = true)
    (h : c.Dispatch l d rest c') (t : TaskId) :
    c'.stamp? t = if t = d.task then (c.stamp? t).or (some l.id) else c.stamp? t := by
  rw [← mark_fst, mark_dispatch hx hstorage h]
  split
  · rfl
  · exact mark_fst c t

/-! ## Stamps and deliveries -/

theorem subset_of_perm_append {α : Type} {l l' new : List α} (h : l'.Perm (l ++ new)) : l ⊆ l' :=
  fun _ ha => h.mem_iff.mpr (List.mem_append_left new ha)

/-- Only a loop that takes a delivery takes one out of a queue. -/
theorem queued_subset_of_after? [PatternLibrary] (h : c.Sound) {e : Event}
    (he : ∀ u, e ≠ .moved (.dispatch u))
    (hafter : c.after? e = some c') : c.traffic.queued ⊆ c'.traffic.queued := by
  cases e with
  | asked r =>
    injection hafter with hafter
    subst hafter
    rcases accepts_handle h.orderly r with ⟨new, haccepts, _⟩
    exact subset_of_perm_append haccepts.queued
  | moved s =>
    cases s with
    | resolve u => exact subset_of_perm_append (accepts_resolve? h.orderly hafter).queued
    | giveUp u => exact subset_of_perm_append (accepts_giveUp? h.orderly hafter).queued
    | dispatch u => exact absurd rfl (he u)
    | start e =>
      rcases start_of_start? h.orderly hafter with ⟨s, d, rest, rfl, hstart⟩
      rcases orderly_transfer_of_start h.orderly hstart with ⟨_, htransfer⟩
      cases htransfer with
      | start _ hqueued => exact fun d hd => hqueued ▸ hd
    | complete id elapsed =>
      rcases completion_of_complete? hafter with ⟨r, _, hcompletion⟩
      obtain ⟨new, haccepts, _⟩ :=
        accepts_completion (orderly_close h.orderly r elapsed) hcompletion
      rw [traffic_close] at haccepts
      exact subset_of_perm_append haccepts.queued
    | admitMemory => exact fun d hd => traffic_admitMemory? hafter ▸ hd
    | startMemory => exact fun d hd => traffic_startMemory? hafter ▸ hd
    | runMemory t elapsed => exact fun d hd => traffic_runMemory? hafter ▸ hd

/-- A delivery that has left its queue has a task with a stamp, and stamps come from deliveries. -/
structure Stamped (c : Cluster) : Prop where
  taken : ∀ d ∈ c.traffic.deliveries, d ∈ c.traffic.queued ∨ (c.stamp? d.task).isSome
  delivered : ∀ t u, c.stamp? t = some u → ∃ d ∈ c.traffic.deliveries, d.task = t ∧ d.unit = u

theorem stamped_of_same (h : c.Stamped) (hstamp : c'.stamp? = c.stamp?)
    {new : List Delivery} (hdeliveries : c'.traffic.deliveries.Perm (c.traffic.deliveries ++ new))
    (hnew : new ⊆ c'.traffic.queued) (hqueued : c.traffic.queued ⊆ c'.traffic.queued) :
    c'.Stamped where
  taken d hd := by
    rw [hstamp]
    rcases List.mem_append.mp (hdeliveries.mem_iff.mp hd) with hd | hd
    · exact (h.taken d hd).imp_left fun hd => hqueued hd
    · exact .inl (hnew hd)
  delivered t u hu := by
    rcases h.delivered t u (hstamp ▸ hu) with ⟨d, hd, hboth⟩
    exact ⟨d, subset_of_perm_append hdeliveries hd, hboth⟩

theorem stamped_of_dispatch (h : c.Stamped) (hc : c.Coherent) {l : UnitLoop} {d : Delivery}
    {rest : List Delivery} (hl : c.unit? l.id = some l) (hitems : l.queue.items = d :: rest)
    (hdispatch : c.Dispatch l d rest c') : c'.Stamped := by
  have hmem := mem_units_of_unit? hl
  have hhead : d ∈ l.queue.items := hitems ▸ List.mem_cons_self
  have hdelivered : d ∈ c.traffic.deliveries := mem_deliveries_of_queue hmem hhead
  have hunit : d.unit = l.id := hc.sound.orderly.queuedAt l hmem d hhead
  rcases hc.storage d hdelivered with ⟨x, hx, hstorage⟩
  have hstamp := stamp?_dispatch hx hstorage hdispatch
  obtain ⟨_, htransfer, hqueued⟩ :=
    orderly_transfer_of_dispatch hc.sound.orderly hl hitems hdispatch
  have hsame := htransfer.deliveries_perm
  rw [List.append_nil] at hsame
  refine ⟨?_, ?_⟩
  · intro e he
    rw [hstamp]
    -- The task of `d` has a stamp now; any other delivery is where it was, unless it is `d`.
    by_cases ht : e.task = d.task
    · rw [if_pos ht]
      exact .inr (by simp)
    · rw [if_neg ht]
      rcases h.taken e (hsame.mem_iff.mp he) with he | he
      · rcases List.mem_cons.mp (hqueued.mem_iff.mp he) with rfl | he
        · exact absurd rfl ht
        · exact .inl he
      · exact .inr he
  · intro t u hu
    have hold : ∀ u, c.stamp? t = some u → ∃ d ∈ c'.traffic.deliveries, d.task = t ∧ d.unit = u :=
      fun u hu => by
        rcases h.delivered t u hu with ⟨e, he, hboth⟩
        exact ⟨e, hsame.mem_iff.mpr he, hboth⟩
    rw [hstamp] at hu
    by_cases ht : t = d.task
    · rw [if_pos ht] at hu
      -- The stamp is an old one, or that of the unit which has just taken `d`.
      rcases Option.or_eq_some_iff.mp hu with hu | ⟨_, hu⟩
      · exact hold u hu
      · exact ⟨d, hsame.mem_iff.mpr hdelivered, ht.symm, hunit.trans (Option.some.inj hu)⟩
    · rw [if_neg ht] at hu
      exact hold u hu

theorem Stamped.after? [PatternLibrary] (h : c.Stamped) (hc : c.Coherent) {e : Event}
    (hafter : c.after? e = some c') : c'.Stamped := by
  -- Only this move stamps, and only it takes out of queues; all others can do no harm.
  by_cases he : ∃ u, e = .moved (.dispatch u)
  · rcases he with ⟨u, rfl⟩
    rcases dispatch_of_dispatch? hafter with ⟨l, d, rest, hl, _, _, hitems, hdispatch⟩
    exact stamped_of_dispatch h hc (id_of_unit? hl ▸ hl) hitems hdispatch
  · have hother : ∀ u, e ≠ .moved (.dispatch u) := fun u hu => he ⟨u, hu⟩
    rcases orderly_transfer_of_after? hc.sound hafter with ⟨new, _, htransfer, _⟩
    refine stamped_of_same h ?_ htransfer.deliveries_perm htransfer.new_subset
      (queued_subset_of_after? hc.sound hother hafter)
    cases e with
    | asked r =>
      injection hafter with hafter
      exact hafter ▸ stamp?_handle c r
    | moved s => exact stamp?_step? (fun u hs => hother u (hs ▸ rfl)) hafter

theorem stamped_of_run? [PatternLibrary] {s : Setup} {events : List Event}
    (hrun : (build s).run? events = some c) : c.Stamped := by
  refine (coherent_build s).run?_induction (P := Stamped)
    (fun hc h hafter => h.after? hc hafter) ⟨fun d hd => ?_, fun t u hu => ?_⟩ hrun
  · rw [deliveries_build] at hd
    cases hd
  · have hnone : (build s).task? t = none := Option.map_eq_none_iff.mp
      (congrFun (congrArg Roster.task? (roster_build s)) t)
    rw [stamp?, hnone] at hu
    cases hu

/-- The stamp of a task with a single delivery that has left its queue is the unit of that
delivery. -/
theorem Stamped.stamp?_eq (h : c.Stamped) {d : Delivery} (hd : d ∈ c.traffic.deliveries)
    (hqueued : d ∉ c.traffic.queued)
    (honce : ∀ d' ∈ c.traffic.deliveries, d'.task = d.task → d' = d) :
    c.stamp? d.task = some d.unit := by
  rcases Option.isSome_iff_exists.mp ((h.taken d hd).resolve_left hqueued) with ⟨u, hu⟩
  rcases h.delivered d.task u hu with ⟨d', hd', htask, hunit⟩
  rw [hu, ← hunit, honce d' hd' htask]

end Cluster
end SeriesExec
