import SeriesExec.Proofs.Broadcast
import SeriesExec.Proofs.Replays
import SeriesExec.Proofs.Routing

/-!
# Writes — where the writes of a group are delivered

If all writes of a group are committed and broadcast, then the master gets each of them, and every
other member gets copies only.  This file defines:

* `Cluster.writes`, `Cluster.groupOf?`, `Cluster.isBroadcast` — what stays of a task for ever;
* `Cluster.WrittenThrough` — the writes to a group are single operators, and are committed and
  broadcast;
* `Cluster.Sourced` — which deliveries of writes are where.

Main statements: writes are where they belong after every history (`sourced_of_run?`), so in the end
exactly the writes that were delivered to a member are stamped with it (`Sourced.stamp?_eq_iff`).
-/

namespace SeriesExec

open Traffic Store

namespace Cluster

variable {c c₁ c₂ : Cluster} {ids : List UnitId} {master : UnitId} {events : List Event}

/-! ## What stays of a task -/

/-- Whether the first operator of a task writes. -/
def writes (c : Cluster) (t : TaskId) : Bool :=
  (c.operatorsOf t).head?.any Operator.isWrite

/-- The members of the group that holds the fragment of a task. -/
def groupOf? (c : Cluster) (t : TaskId) : Option (List UnitId) :=
  (c.task? t).bind fun x => x.fragment?.map fun f => f.master.groupIds

/-- Whether a task is copied once it has succeeded. -/
def isBroadcast (c : Cluster) (t : TaskId) : Bool :=
  (c.task? t).any Task.broadcasts

section Later

variable {t : TaskId} {x : Task} (h : c₁.roster.Later c.roster) (hx : c₁.task? t = some x)

include h hx

theorem writes_of_later : c.writes t = x.isWrite := by
  rw [writes, operatorsOf_of_later h hx, operatorsOf_eq hx, Task.isWrite]

theorem groupOf?_of_later : c.groupOf? t = x.fragment?.map fun f => f.master.groupIds := by
  obtain ⟨y, hy, hlater⟩ := later_task? h hx
  have hsame : y.fragment? = x.fragment? := by
    rw [← y.fragment?_core, hlater.fragment?_eq, x.fragment?_core]
  rw [groupOf?, hy, Option.bind_some, hsame]

theorem isBroadcast_of_later : c.isBroadcast t = x.broadcasts := by
  obtain ⟨y, hy, hlater⟩ := later_task? h hx
  rw [isBroadcast, hy, Option.any_some]
  exact hlater.broadcasts_eq

end Later

/-! ## How writes come in -/

/-- The tasks that an event commits. -/
def Event.commits : Event → List TaskId
  | .asked (.commit t) => [t]
  | .asked (.commitAll ts) => ts
  | _ => []

theorem Sends.cases {r : Request} {d : Delivery} (h : c.Sends r d) :
    d.task ∈ (Event.asked r).commits ∧ c.Routed d ∨ r = .commitTo d.task d.unit := by
  cases r with
  | commit t => exact .inl ⟨List.mem_singleton.mpr h.1, h.2⟩
  | commitAll ts => exact .inl h
  | commitTo t u =>
    obtain ⟨rfl, rfl⟩ := h
    exact .inr rfl
  | _ => exact h.elim

/-- Every write to a member of the group, which has the members `ids`, is a single operator for the
group, and comes in by a commit or as a copy of what has come in so. -/
structure WrittenThrough (c : Cluster) (ids : List UnitId) (events : List Event) : Prop where
  /-- What writes to a member is a single operator and is for the group. -/
  alone : ∀ d ∈ c.traffic.deliveries, d.unit ∈ ids → c.writes d.task = true →
    (c.operatorsOf d.task).length = 1 ∧ c.groupOf? d.task = some ids
  /-- What is committed and writes to a member is broadcast. -/
  committed : ∀ d ∈ c.traffic.deliveries, d.unit ∈ ids → c.writes d.task = true →
    ∀ e ∈ events, d.task ∈ e.commits → c.isBroadcast d.task = true
  /-- A write that is handed to a unit past the routing writes to no member, and is not broadcast to
  the group either. -/
  handed : ∀ d ∈ c.traffic.deliveries, .asked (.commitTo d.task d.unit) ∈ events →
    c.writes d.task = true → (c.groupOf? d.task = some ids → c.isBroadcast d.task = false) ∧
      ∀ d' ∈ c.traffic.deliveries, d'.task = d.task → d'.unit ∉ ids

/-! ## Where writes are -/

/-- Of the deliveries `ds`, those of writes that are broadcast to the group are on its master, and
those of other writes for the group that are on a member are not on the master and are the only ones
of their tasks. -/
structure Sourced (c : Cluster) (ids : List UnitId) (master : UnitId) (ds : List Delivery) :
    Prop where
  original : ∀ d ∈ ds, c.writes d.task = true → c.groupOf? d.task = some ids →
    c.isBroadcast d.task = true → d.unit = master
  copy : ∀ d ∈ ds, c.writes d.task = true → c.groupOf? d.task = some ids →
    c.isBroadcast d.task = false → d.unit ∈ ids →
      d.unit ≠ master ∧ ∀ d' ∈ ds, d'.task = d.task → d' = d

theorem Sourced.subset {ds ds' : List Delivery} (h : c.Sourced ids master ds) (hsub : ds' ⊆ ds) :
    c.Sourced ids master ds' where
  original d hd := h.original d (hsub hd)
  copy d hd hwrites hgroup hbroadcast hunit :=
    let ⟨hne, hsole⟩ := h.copy d (hsub hd) hwrites hgroup hbroadcast hunit
    ⟨hne, fun d' hd' => hsole d' (hsub hd')⟩

/-- All deliveries of a write on a member are on that member. -/
theorem Sourced.unit_eq {ds : List Delivery} (h : c.Sourced ids master ds) {d d' : Delivery}
    (hd : d ∈ ds) (hd' : d' ∈ ds) (htask : d'.task = d.task) (hunit : d.unit ∈ ids)
    (hwrites : c.writes d.task = true) (hgroup : c.groupOf? d.task = some ids) :
    d'.unit = d.unit := by
  cases hbroadcast : c.isBroadcast d.task with
  | true =>
    rw [h.original d hd hwrites hgroup hbroadcast]
    exact h.original d' hd' (htask ▸ hwrites) (htask ▸ hgroup) (htask ▸ hbroadcast)
  | false =>
    rw [(h.copy d hd hwrites hgroup hbroadcast hunit).2 d' hd' htask]

/-- The deliveries that a request brings in: a committed write is broadcast from the master, and any
other write comes to no member. -/
theorem WrittenThrough.sent (hwritten : c.WrittenThrough ids events)
    (hids : ∃ others, ids = master :: others) (hlater : c₁.roster.Later c.roster)
    (hrouter : ∀ u, c₁.router ≠ .fixed u) {r : Request} (hr : .asked r ∈ events) {d : Delivery}
    (hd : d ∈ c.traffic.deliveries) (hsends : c₁.Sends r d) (hwrites : c.writes d.task = true)
    (hgroup : c.groupOf? d.task = some ids) :
    c.isBroadcast d.task = true ∧ d.unit = master ∨
      c.isBroadcast d.task = false ∧
        ∀ d' ∈ c.traffic.deliveries, d'.task = d.task → d'.unit ∉ ids := by
  rcases hsends.cases with ⟨hcommits, x, s, hx, hs, hunit⟩ | rfl
  · have hwrite : x.isWrite = true := writes_of_later hlater hx ▸ hwrites
    have hmembers := hgroup
    rw [groupOf?_of_later hlater hx, Task.fragment?, hs] at hmembers
    -- The master of a group is the first of its members.
    obtain ⟨others, rfl⟩ := hids
    rw [route_of_write hrouter hwrite, Fragment.masterId,
      (List.cons.inj (Option.some.inj hmembers)).1] at hunit
    exact .inl ⟨hwritten.committed d hd (hunit ▸ List.mem_cons_self) hwrites _ hr hcommits, hunit⟩
  · obtain ⟨hsilent, hothers⟩ := hwritten.handed d hd hr hwrites
    exact .inr ⟨hsilent hgroup, hothers⟩

theorem Sourced.sent (h : c.Sourced ids master c₁.traffic.deliveries)
    (hwritten : c.WrittenThrough ids events) (hids : ∃ others, ids = master :: others)
    (hlater : c₁.roster.Later c.roster) (hrouter : ∀ u, c₁.router ≠ .fixed u) {r : Request}
    (hr : .asked r ∈ events) {ds : List Delivery} (hds : ds ⊆ c.traffic.deliveries)
    (hnew : ∀ d ∈ ds, d ∈ c₁.traffic.deliveries ∨ c₁.Sends r d) : c.Sourced ids master ds := by
  have hsent : ∀ {d : Delivery}, d ∈ ds → c₁.Sends r d → c.writes d.task = true →
      c.groupOf? d.task = some ids → c.isBroadcast d.task = true ∧ d.unit = master ∨
        c.isBroadcast d.task = false ∧
          ∀ d' ∈ c.traffic.deliveries, d'.task = d.task → d'.unit ∉ ids :=
    fun hd hsends => hwritten.sent hids hlater hrouter hr (hds hd) hsends
  constructor
  · intro d hd hwrites hgroup hbroadcast
    rcases hnew d hd with hold | hsends
    · exact h.original d hold hwrites hgroup hbroadcast
    · rcases hsent hd hsends hwrites hgroup with ⟨_, hunit⟩ | ⟨hsilent, _⟩
      · exact hunit
      · rw [hsilent] at hbroadcast
        cases hbroadcast
  · intro d hd hwrites hgroup hbroadcast hunit
    -- A delivery whose task comes in again would be broadcast, or on no member.
    have hnot : ∀ d' ∈ ds, d'.task = d.task → ¬c₁.Sends r d' := by
      intro d' hd' htask hsends
      rcases hsent hd' hsends (htask ▸ hwrites) (htask ▸ hgroup) with ⟨htrue, _⟩ | ⟨_, hothers⟩
      · rw [htask, hbroadcast] at htrue
        cases htrue
      · exact hothers d (hds hd) htask.symm hunit
    have hold := (hnew d hd).resolve_right (hnot d hd rfl)
    obtain ⟨hne, hsole⟩ := h.copy d hold hwrites hgroup hbroadcast hunit
    refine ⟨hne, fun d' hd' htask => ?_⟩
    exact hsole d' ((hnew d' hd').resolve_right (hnot d' hd' htask)) htask

/-! ## Stamps -/

/-- A write on a member that has left its queue is stamped with the member. -/
theorem Sourced.stamp?_eq (h : c.Sourced ids master c₁.traffic.deliveries) (hstamped : c₁.Stamped)
    {d : Delivery} (hd : d ∈ c₁.traffic.deliveries) (hqueued : d ∉ c₁.traffic.queued)
    (hunit : d.unit ∈ ids) (hwrites : c.writes d.task = true)
    (hgroup : c.groupOf? d.task = some ids) : c₁.stamp? d.task = some d.unit := by
  obtain ⟨u, hu⟩ := Option.isSome_iff_exists.mp ((hstamped.taken d hd).resolve_left hqueued)
  obtain ⟨d', hd', htask, rfl⟩ := hstamped.delivered d.task u hu
  rw [hu, h.unit_eq hd hd' htask hunit hwrites hgroup]

/-- In the end, a write is stamped with a member exactly if it is delivered to that member. -/
theorem Sourced.stamp?_eq_iff (h : c.Sourced ids master c.traffic.deliveries)
    (hwritten : c.WrittenThrough ids events) (hstamped : c.Stamped) {d : Delivery}
    (hd : d ∈ c.traffic.deliveries) (hqueued : d ∉ c.traffic.queued)
    (hwrites : c.writes d.task = true) {u : UnitId} (hu : u ∈ ids) :
    c.stamp? d.task = some u ↔ d.unit = u := by
  constructor
  · intro hstamp
    obtain ⟨d', hd', htask, rfl⟩ := hstamped.delivered d.task u hstamp
    have hown : c.writes d'.task = true := htask ▸ hwrites
    exact h.unit_eq hd' hd htask.symm hu hown (hwritten.alone d' hd' hu hown).2
  · rintro rfl
    exact h.stamp?_eq hstamped hd hqueued hu hwrites (hwritten.alone d hd hu hwrites).2

/-! ## Copies -/

theorem task?_of_mem_copyDeliveries {made : List Task} {us : List UnitId}
    (h : Appended c₁ c₂ made (copyDeliveries c₁.accepted c₁.tasks.length us)) {y : Task}
    (hmade : made = List.replicate us.length y) {d : Delivery}
    (hd : d ∈ copyDeliveries c₁.accepted c₁.tasks.length us) : c₂.task? d.task = some y := by
  obtain ⟨hle, hlt⟩ := task_of_mem_copyDeliveries hd
  obtain ⟨i, hi⟩ := Nat.exists_eq_add_of_le hle
  have hlt : i < us.length := Nat.lt_of_add_lt_add_left (hi ▸ hlt)
  rw [hi, h.task?, hmade, List.getElem?_replicate, if_pos hlt]

theorem map_task_copyDeliveries (d t : Nat) (us : List UnitId) :
    (copyDeliveries d t us).map Delivery.task = List.range' t us.length := by
  induction us generalizing d t with
  | nil => rfl
  | cons u us ih => exact congrArg (t :: ·) (ih (d + 1) (t + 1))

/-- Each copy is a task of its own. -/
theorem eq_of_mem_copyDeliveries {d t : Nat} {us : List UnitId} {e e' : Delivery}
    (he : e ∈ copyDeliveries d t us) (he' : e' ∈ copyDeliveries d t us) (htask : e'.task = e.task) :
    e' = e := by
  refine List.inj_on_of_nodup_map ?_ he' he htask
  rw [map_task_copyDeliveries]
  exact List.nodup_range'

/-- The end of a delivery of which copies are made. -/
structure CopiedFrom (c c₁ c₂ : Cluster) (r : Run) (x : Task) (s : StorageShape) : Prop where
  running : r ∈ c₁.running
  task : c₁.task? r.delivery.task = some x
  storage : x.storage? = some s
  appended : Appended c₁ c₂
    (List.replicate (c₁.copiedTo x s r.outcome).length (Task.replicaCopy x.operators s.fragment))
    (copyDeliveries c₁.accepted c₁.tasks.length (c₁.copiedTo x s r.outcome))
  before : c₁.roster.Later c.roster
  after : c₂.roster.Later c.roster

section Copied

variable {r : Run} {x : Task} {s : StorageShape}

theorem CopiedFrom.writes_eq (h : c.CopiedFrom c₁ c₂ r x s) :
    c.writes r.delivery.task = x.isWrite :=
  writes_of_later h.before h.task

theorem CopiedFrom.operators_eq (h : c.CopiedFrom c₁ c₂ r x s) :
    c.operatorsOf r.delivery.task = x.operators :=
  (operatorsOf_of_later h.before h.task).trans (operatorsOf_eq h.task)

theorem CopiedFrom.isBroadcast_eq (h : c.CopiedFrom c₁ c₂ r x s) :
    c.isBroadcast r.delivery.task = x.broadcasts :=
  isBroadcast_of_later h.before h.task

theorem CopiedFrom.groupOf?_eq (h : c.CopiedFrom c₁ c₂ r x s) :
    c.groupOf? r.delivery.task = some s.fragment.master.groupIds := by
  rw [groupOf?_of_later h.before h.task, Task.fragment?, h.storage]
  rfl

/-- What a copy has from the task that it is a copy of. -/
theorem CopiedFrom.of_mem (h : c.CopiedFrom c₁ c₂ r x s) {d : Delivery}
    (hd : d ∈ copyDeliveries c₁.accepted c₁.tasks.length (c₁.copiedTo x s r.outcome)) :
    c.operatorsOf d.task = x.operators ∧ c.writes d.task = x.isWrite ∧
      c.groupOf? d.task = some s.fragment.master.groupIds ∧ c.isBroadcast d.task = false ∧
      d.unit ∈ c₁.copiedTo x s r.outcome := by
  have htask := task?_of_mem_copyDeliveries h.appended rfl hd
  have hoperators : c.operatorsOf d.task = x.operators := by
    rw [operatorsOf_of_later h.after htask, operatorsOf_eq htask]
    rfl
  have hwrites := writes_of_later h.after htask
  refine ⟨hoperators, hwrites, groupOf?_of_later h.after htask, isBroadcast_of_later h.after htask,
    ?_⟩
  · have hunit := List.mem_map_of_mem (f := Delivery.unit) hd
    rwa [map_unit_copyDeliveries] at hunit

theorem copiedTo_of_mem {outcome : Outcome} {u : UnitId} (hu : u ∈ c₁.copiedTo x s outcome) :
    x.broadcasts = true ∧ outcome.result.isOk = true ∧ u ∈ copyTargets s ∧ c₁.knows u = true := by
  unfold copiedTo at hu
  split at hu
  · rename_i hboth
    obtain ⟨hbroadcasts, hok⟩ := Bool.and_eq_true_iff.mp hboth
    obtain ⟨htarget, hknows⟩ := List.mem_filter.mp hu
    exact ⟨hbroadcasts, hok, htarget, hknows⟩
  · cases hu

/-- Copies of a write for the group are made on the master. -/
theorem Sourced.copied (h : c.Sourced ids master c₁.traffic.deliveries)
    (hcopied : c.CopiedFrom c₁ c₂ r x s) (hwrite : x.isWrite = true)
    (hgroup : s.fragment.master.groupIds = ids) (hbroadcasts : x.broadcasts = true)
    (hsound : c₁.Sound) (hstamped : c₁.Stamped) (hmaster : master ∈ ids) :
    r.delivery.unit = master ∧ copyTargets s = ids.filter fun u => u != master := by
  have hwrites : c.writes r.delivery.task = true := hcopied.writes_eq.trans hwrite
  have hids : c.groupOf? r.delivery.task = some ids :=
    hcopied.groupOf?_eq.trans (congrArg some hgroup)
  have hbroadcast : c.isBroadcast r.delivery.task = true :=
    hcopied.isBroadcast_eq.trans hbroadcasts
  have hd := mem_deliveries_of_running hcopied.running
  have hunit := h.original r.delivery hd hwrites hids hbroadcast
  have hstamp := h.stamp?_eq hstamped hd (notMem_queued_of_running hsound hcopied.running)
    (hunit ▸ hmaster) hwrites hids
  rw [stamp?, hcopied.task, Option.bind_some, Task.stamp?, hcopied.storage, Option.bind_some, hunit]
    at hstamp
  refine ⟨hunit, ?_⟩
  rw [copyTargets, hstamp, hgroup]
  rfl

theorem Sourced.ended (h : c.Sourced ids master c₁.traffic.deliveries)
    (hcopied : c.CopiedFrom c₁ c₂ r x s) (hc : c₁.Coherent) (hstamped : c₁.Stamped)
    (hmaster : master ∈ ids) {ds : List Delivery}
    (hnew : ∀ d ∈ ds, d ∈ c₁.traffic.deliveries ∨
      d ∈ copyDeliveries c₁.accepted c₁.tasks.length (c₁.copiedTo x s r.outcome)) :
    c.Sourced ids master ds := by
  -- The task of a copy is a new one.
  have hfresh : ∀ d ∈ c₁.traffic.deliveries,
      ∀ d' ∈ copyDeliveries c₁.accepted c₁.tasks.length (c₁.copiedTo x s r.outcome),
        d'.task ≠ d.task := by
    intro d hd d' hd' htask
    obtain ⟨y, hy, _⟩ := hc.storage d hd
    have hle := (task_of_mem_copyDeliveries hd').1
    rw [htask] at hle
    exact Nat.not_lt.mpr hle (lt_of_task?_eq_some hy)
  constructor
  · intro d hd hwrites hgroup hbroadcast
    rcases hnew d hd with hd | hd
    · exact h.original d hd hwrites hgroup hbroadcast
    · rw [(hcopied.of_mem hd).2.2.2.1] at hbroadcast
      cases hbroadcast
  · intro d hd hwrites hgroup hbroadcast hunit
    rcases hnew d hd with hd | hd
    · obtain ⟨hne, hsole⟩ := h.copy d hd hwrites hgroup hbroadcast hunit
      refine ⟨hne, fun d' hd' htask => ?_⟩
      rcases hnew d' hd' with hd' | hd'
      · exact hsole d' hd' htask
      · exact absurd htask (hfresh d hd d' hd')
    · obtain ⟨_, hsame, hids, _, hto⟩ := hcopied.of_mem hd
      obtain ⟨hbroadcasts, _, htarget, _⟩ := copiedTo_of_mem hto
      have hcopies := h.copied hcopied (hsame ▸ hwrites)
        (Option.some.inj (hids.symm.trans hgroup)) hbroadcasts hc.sound hstamped hmaster
      rw [hcopies.2] at htarget
      refine ⟨bne_iff_ne.mp (List.mem_filter.mp htarget).2, fun d' hd' htask => ?_⟩
      rcases hnew d' hd' with hd' | hd'
      · exact absurd htask.symm (hfresh d' hd' d hd)
      · exact eq_of_mem_copyDeliveries hd hd' htask

end Copied

/-! ## Histories -/

variable [PatternLibrary]

/-- An event of a history from a new cluster to `c`, with what holds before and after it. -/
structure Moment (s : Setup) (c c₁ : Cluster) (e : Event) (c₂ : Cluster) : Prop where
  coherent : c₁.Coherent
  stamped : c₁.Stamped
  router : c₁.router = s.router
  after : c₁.after? e = some c₂
  rest : ∃ events, c₂.run? events = some c

section Moment

variable {s : Setup} {e : Event}

theorem moment_of_within {before : List Event} {c₀ : Cluster}
    (hbefore : (build s).run? before = some c₀) (h : Within c₀ c c₁ e c₂) : Moment s c c₁ e c₂ := by
  obtain ⟨first, hfirst⟩ := h.before
  have hreached : (build s).run? (before ++ first) = some c₁ := by
    rw [run?_append, hbefore]
    exact hfirst
  exact ⟨(coherent_build s).run? hreached, stamped_of_run? hreached, router_of_run? hreached,
    h.after, h.rest⟩

theorem Moment.coherent_after (h : Moment s c c₁ e c₂) : c₂.Coherent :=
  h.coherent.after? h.after

theorem Moment.later_after (h : Moment s c c₁ e c₂) : c₂.roster.Later c.roster :=
  let ⟨_, hrest⟩ := h.rest
  later_of_run? h.coherent_after hrest

theorem Moment.later (h : Moment s c c₁ e c₂) : c₁.roster.Later c.roster :=
  (later_of_after? h.coherent h.after).trans h.later_after

theorem Moment.subset (h : Moment s c c₁ e c₂) :
    c₂.traffic.deliveries ⊆ c.traffic.deliveries :=
  let ⟨_, hrest⟩ := h.rest
  (subperm_deliveries_of_run? h.coherent_after.sound hrest).subset

theorem Moment.course (h : Moment s c c₁ e c₂) : ∃ new, Course True c₂.traffic new c.traffic :=
  let ⟨_, hrest⟩ := h.rest
  course_of_run? h.coherent_after hrest

/-- A delivery ends, and copies of its task are made. -/
theorem Moment.copiedFrom {id : Nat} {elapsed : Duration}
    (h : Moment s c c₁ (.moved (.complete id elapsed)) c₂) :
    ∃ r x shape, c₁.Completion r elapsed c₂ ∧ c.CopiedFrom c₁ c₂ r x shape := by
  obtain ⟨r, _, hcompletion⟩ := completion_of_complete? h.after
  obtain ⟨hr, x, shape, hx, hs⟩ := exists_storage_of_completion h.coherent hcompletion
  exact ⟨r, x, shape, hcompletion, hr, hx, hs, appended_of_completion hcompletion hx hs, h.later,
    h.later_after⟩

/-- Every event leaves writes where they belong. -/
theorem Sourced.after? (h : c.Sourced ids master c₁.traffic.deliveries)
    (hmoment : Moment s c c₁ e c₂) (he : e ∈ events) (hwritten : c.WrittenThrough ids events)
    (hids : ∃ others, ids = master :: others) (hrouter : ∀ u, s.router ≠ .fixed u) :
    c.Sourced ids master c₂.traffic.deliveries := by
  have hmaster : master ∈ ids := by
    obtain ⟨others, rfl⟩ := hids
    exact List.mem_cons_self
  cases e with
  | asked r =>
    obtain ⟨new, hcourse, hsends⟩ : ∃ new, Course True c₁.traffic new (c₁.handle r).1.traffic ∧
        ∀ d ∈ new, c₁.Sends r d :=
      course_handle hmoment.coherent.sound.orderly fun _ => trivial
    obtain rfl : (c₁.handle r).1 = c₂ := Option.some.inj hmoment.after
    exact h.sent hwritten hids hmoment.later (fun u => hmoment.router ▸ hrouter u) he hmoment.subset
      fun d hd => (hcourse.mem_deliveries hd).imp_right (hsends d)
  | moved step =>
    by_cases hstep : ∃ id elapsed, step = .complete id elapsed
    · obtain ⟨id, elapsed, rfl⟩ := hstep
      obtain ⟨r, x, shape, hcompletion, hcopied⟩ := hmoment.copiedFrom
      have hcourse : Course True c₁.traffic _ c₂.traffic :=
        course_completion hmoment.coherent.sound hcompletion hcopied.task hcopied.storage
      exact h.ended hcopied hmoment.coherent hmoment.stamped hmaster fun d hd =>
        hcourse.mem_deliveries hd
    · have hcourse : Course True c₁.traffic [] c₂.traffic :=
        course_move? hmoment.coherent.sound.orderly
          (fun id elapsed hsame => hstep ⟨id, elapsed, hsame⟩) (fun _ => trivial) hmoment.after
      refine h.subset fun d hd => ?_
      exact (hcourse.mem_deliveries hd).resolve_right List.not_mem_nil

end Moment

/-- After every part of a history writes are where they belong. -/
theorem sourced_of_run? {s : Setup} {first rest : List Event}
    (hfirst : (build s).run? first = some c₁) (hrest : c₁.run? rest = some c)
    (hwritten : c.WrittenThrough ids events) (hsub : first ⊆ events)
    (hids : ∃ others, ids = master :: others) (hrouter : ∀ u, s.router ≠ .fixed u) :
    c.Sourced ids master c₁.traffic.deliveries := by
  refine within_induction (P := fun c₁ => c.Sourced ids master c₁.traffic.deliveries) hfirst ?_ ?_
  · intro e he a b hwithin h
    have hstart : (build s).run? [] = some (build s) := rfl
    have hmoment := moment_of_within hstart hwithin
    obtain ⟨between, hbetween⟩ := hmoment.rest
    have hall : b.run? (between ++ rest) = some c := by
      rw [run?_append, hbetween]
      exact hrest
    exact h.after? { hmoment with rest := ⟨_, hall⟩ } (hsub he) hwritten hids hrouter
  · rw [deliveries_build]
    exact ⟨fun _ hd => (List.not_mem_nil hd).elim, fun _ hd => (List.not_mem_nil hd).elim⟩

end Cluster
end SeriesExec
