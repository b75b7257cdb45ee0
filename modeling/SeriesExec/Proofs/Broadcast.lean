import SeriesExec.Proofs.Copies

/-!
# Broadcast — one write, one execution on each member

This file follows the copies of a task through whole histories.  It defines:

* `StorageUnit.IsGroup` — groups that are made by attaching replicas to a master;
* `Cluster.copiesOf` — the numbers of the deliveries that come in when workers end a task;
* `Cluster.othersOf` — the known members of a group but one.

Main statements: a copy is not copied itself (`passive_of_mem_copiesOf`, `copiesOf_eq_nil`), drivers
are called for the copies of a task on each other member of its group as often at most as that is
listed (`countP_calls_le`), and what all that means for writes (`write_copied_to_group`).
-/

namespace SeriesExec

open Traffic Roster

/-! ## Groups -/

/-- A group that was made by attaching replicas to a master. -/
inductive StorageUnit.IsGroup : StorageUnit → Prop where
  | master (id : UnitId) (engine : EngineId) : IsGroup (newMaster id engine)
  | attach {g g' replica : StorageUnit} (h : IsGroup g) (hadd : g.addReplica replica = .ok g') :
    IsGroup g'

/-- A group has no member twice. -/
theorem StorageUnit.IsGroup.nodup {g : StorageUnit} (h : g.IsGroup) : g.groupIds.Nodup := by
  -- An attached replica must be new to the group, and the group names its master by its own id;
  -- only both together go through the induction.
  have hboth : g.masterId = g.id ∧ g.groupIds.Nodup := by
    induction h with
    | master id engine => exact ⟨rfl, List.nodup_singleton id⟩
    | attach h hadd ih =>
      rename_i g g' replica
      rcases ih with ⟨hmaster, hnodup⟩
      unfold addReplica at hadd
      split at hadd
      · cases hadd
      · split at hadd
        · cases hadd
        · split at hadd
          · cases hadd
          · rename_i hnew
            injection hadd with hadd
            subst hadd
            simp only [Bool.or_eq_true, beq_iff_eq, List.any_eq_true, not_or, not_exists,
              not_and] at hnew
            refine ⟨hmaster, ?_⟩
            have hids : ({ g with replicas := g.replicas ++ [replica] } : StorageUnit).groupIds =
                g.groupIds ++ [replica.id] := by
              simp [groupIds]
            rw [hids, List.nodup_append]
            refine ⟨hnodup, List.nodup_singleton _, ?_⟩
            intro a ha b hb
            rw [List.mem_singleton.mp hb]
            rintro rfl
            rcases List.mem_cons.mp ha with ha | ha
            · exact hnew.1 (ha.trans hmaster)
            · rcases List.mem_map.mp ha with ⟨r, hr, hid⟩
              exact hnew.2 r hr hid
  exact hboth.2

namespace Cluster

variable {c c' c₁ c₂ : Cluster} {events : List Event}

/-! ## Copies in a history -/

/-- The numbers of the deliveries that come in when a worker ends the task `t`. -/
def copiedBy (t : TaskId) (c : Cluster) : Event → List Nat
  | .moved (.complete d elapsed) =>
    if (c.running.find? fun r => r.delivery.id == d).any fun r => r.delivery.task == t then
      match c.complete? d elapsed with
      | none => []
      | some c' => List.range' c.accepted (c'.accepted - c.accepted)
    else []
  | _ => []

/-- The numbers of the deliveries that come in in a history when workers end the task `t`. -/
def copiesOf [PatternLibrary] (c : Cluster) (t : TaskId) (events : List Event) : List Nat :=
  c.trace (copiedBy t) events

theorem completion_of_mem_copiedBy [PatternLibrary] {t : TaskId} {e : Event} {n : Nat}
    (hafter : c.after? e = some c') (hn : n ∈ copiedBy t c e) :
    ∃ r elapsed, c.Completion r elapsed c' ∧ r.delivery.task = t ∧
      copiedBy t c e = List.range' c.accepted (c'.accepted - c.accepted) := by
  unfold copiedBy at hn ⊢
  split at hn
  · rename_i d elapsed
    split at hn
    · rename_i htask
      rcases completion_of_complete? hafter with ⟨r, hid, hcompletion⟩
      rw [show c.complete? d elapsed = some c' from hafter, if_pos htask]
      refine ⟨r, elapsed, hcompletion, ?_, rfl⟩
      rw [← hid, hcompletion.found, Option.any_some] at htask
      exact eq_of_beq htask
    · cases hn
  · cases hn

theorem past_sublist_of_run? [PatternLibrary] (h : c.Sound) (hrun : c.run? events = some c') :
    c.traffic.past.Sublist c'.traffic.past := by
  refine h.run?_induction (P := fun c' => c.traffic.past.Sublist c'.traffic.past)
    (fun hc hsub hafter => ?_) (List.Sublist.refl _) hrun
  rcases orderly_transfer_of_after? hc hafter with ⟨new, _, htransfer, _⟩
  exact hsub.trans htransfer.past_sublist

theorem mem_past_of_completion {r : Run} {elapsed : Duration} (hc : c.Completion r elapsed c') :
    r.delivery ∈ c'.traffic.past := by
  have hclose : r.delivery ∈ (c.close r elapsed).traffic.past := by
    rw [traffic_close, past, List.map_append]
    exact List.mem_append_right _ (List.mem_singleton_self _)
  rw [hc.after]
  split
  · rw [past, show (broadcast _ _).traffic.finished = _ from finished_broadcast _ _]
    exact hclose
  · exact hclose

/-- A task that is over is not with a worker any more, if it is delivered once. -/
theorem two_le_countP {t : TaskId} {d : Delivery} {r : Run} (hpast : d ∈ c.traffic.past)
    (hd : d.task = t) (hr : r ∈ c.running) (htask : r.delivery.task = t) :
    2 ≤ c.traffic.deliveries.countP fun d => d.task == t := by
  have hunderway : r.delivery ∈ c.traffic.underway := List.mem_map_of_mem hr
  have hone : 0 < c.traffic.past.countP fun d => d.task == t :=
    List.countP_pos_iff.mpr ⟨d, hpast, beq_iff_eq.mpr hd⟩
  have hother : 0 < c.traffic.underway.countP fun d => d.task == t :=
    List.countP_pos_iff.mpr ⟨r.delivery, hunderway, beq_iff_eq.mpr htask⟩
  rw [deliveries, List.countP_append, List.countP_append, List.countP_append]
  omega

section

variable [PatternLibrary]

/-- The copies of a task that is delivered once all come from one event. -/
theorem copiesOf_of_once (hc : c.Sound) (hrun : c.run? events = some c') {t : TaskId}
    (honce : (c'.traffic.deliveries.countP fun d => d.task == t) ≤ 1) :
    c.copiesOf t events = [] ∨
      ∃ c₁ e c₂, Within c c' c₁ e c₂ ∧ c.copiesOf t events = copiedBy t c₁ e := by
  induction events generalizing c with
  | nil => exact .inl rfl
  | cons e rest ih =>
    rcases Option.bind_eq_some_iff.mp hrun with ⟨c₁, hafter, hrest⟩
    have hsplit : c.copiesOf t (e :: rest) = copiedBy t c e ++ c₁.copiesOf t rest :=
      trace_cons (copiedBy t) hafter rest
    rw [hsplit]
    cases hcopied : copiedBy t c e with
    | nil =>
      refine (ih (hc.after? hafter) hrest).imp_right ?_
      rintro ⟨c₂, e', c₃, hwithin, heq⟩
      exact ⟨c₂, e', c₃, hwithin.cons hafter, heq⟩
    | cons n ns =>
      have hn : n ∈ copiedBy t c e := hcopied ▸ List.mem_cons_self
      rcases completion_of_mem_copiedBy hafter hn with ⟨r, elapsed, hcompletion, htask, _⟩
      refine .inr ⟨c, e, c₁, ⟨⟨[], rfl⟩, hafter, rest, hrest⟩, ?_⟩
      -- A second end would need a second delivery: the first is over by then.
      have hnone : c₁.copiesOf t rest = [] := by
        refine List.eq_nil_iff_forall_not_mem.mpr ?_
        intro m hm
        obtain ⟨c₂, e', c₃, ⟨⟨before, hbefore⟩, hafter', later, hlater⟩, hm⟩ :=
          within_of_mem_trace hrest hm
        rcases completion_of_mem_copiedBy hafter' hm with ⟨r', _, hcompletion', htask', _⟩
        have hsound := (hc.after? hafter).run? hbefore
        have htwo := two_le_countP
          ((past_sublist_of_run? (hc.after? hafter) hbefore).subset
            (mem_past_of_completion hcompletion)) htask
          (List.mem_of_find?_eq_some hcompletion'.found) htask'
        have hall := (subperm_deliveries_of_run? hsound
          (show c₂.run? (e' :: later) = some c' by rw [run?, hafter']; exact hlater)).countP_le
            fun d => d.task == t
        omega
      rw [hnone, List.append_nil, hcopied]

/-! ## What the copies are -/

/-- Whatever comes in when a worker ends the task `t` is a copy of it for a known member of its
group, and nothing else ever has its number. -/
theorem copies_of_copiedBy (hc : c.Coherent) {e : Event} (hwithin : Within c c' c₁ e c₂)
    {t : TaskId} {n : Nat} (hn : n ∈ copiedBy t c₁ e) :
    ∃ r x s, r ∈ c₁.running ∧ r.delivery.task = t ∧ c₁.task? t = some x ∧ x.storage? = some s ∧
      Appended c₁ c₂
        (List.replicate (c₁.copiedTo x s r.outcome).length
          (Task.replicaCopy x.operators s.fragment))
        (copyDeliveries c₁.accepted c₁.tasks.length (c₁.copiedTo x s r.outcome)) ∧
      ∀ d ∈ c'.traffic.deliveries, d.id ∈ copiedBy t c₁ e →
        d ∈ copyDeliveries c₁.accepted c₁.tasks.length (c₁.copiedTo x s r.outcome) := by
  rcases hwithin with ⟨⟨before, hbefore⟩, hafter, later, hlater⟩
  have hc₁ := hc.run? hbefore
  have hc₂ := hc₁.after? hafter
  rcases completion_of_mem_copiedBy hafter hn with ⟨r, elapsed, hcompletion, htask, hcopied⟩
  have hr := List.mem_of_find?_eq_some hcompletion.found
  rcases hc₁.storage r.delivery (mem_deliveries_of_running hr) with ⟨x, hx, hstorage⟩
  rcases Option.isSome_iff_exists.mp hstorage with ⟨s, hs⟩
  have happended := appended_of_completion hcompletion hx hs
  refine ⟨r, x, s, hr, htask, htask ▸ hx, hs, happended, ?_⟩
  intro d hd hid
  rw [hcopied, happended.accepted, Nat.add_sub_cancel_left, length_copyDeliveries,
    ← map_id_copyDeliveries c₁.accepted c₁.tasks.length] at hid
  rcases List.mem_map.mp hid with ⟨d', hd', hsame⟩
  have hunit : d'.unit ∈ c₁.copiedTo x s r.outcome := by
    rw [← map_unit_copyDeliveries c₁.accepted c₁.tasks.length (c₁.copiedTo x s r.outcome)]
    exact List.mem_map_of_mem hd'
  -- A copy is in the queue of its unit after the event, so it is one of the deliveries, and no
  -- other has its number.
  have hknows : c₁.knows d'.unit = true := by
    unfold copiedTo at hunit
    split at hunit
    · exact (List.mem_filter.mp hunit).2
    · cases hunit
  have hmem : d' ∈ c'.traffic.deliveries := by
    refine (subperm_deliveries_of_run? hc₂.sound hlater).subset ?_
    simp [deliveries, happended.mem_queued hd' hknows]
  have hnodup := ((hc₂.run? hlater).sound.numbered).nodup
  rwa [← List.inj_on_of_nodup_map hnodup hmem hd hsame]

/-- The end of a task that does not broadcast brings nothing in. -/
theorem copiesOf_eq_nil (hc : c.Coherent) (hrun : c.run? events = some c') {t : TaskId} {y : Task}
    (hy : c'.task? t = some y) (hbroadcasts : y.broadcasts = false) : c.copiesOf t events = [] := by
  refine List.eq_nil_iff_forall_not_mem.mpr ?_
  intro n hn
  rcases within_of_mem_trace hrun hn with ⟨c₁, e, c₂, hwithin, hn⟩
  rcases copies_of_copiedBy hc hwithin hn with ⟨r, x, s, _, _, hx, _, happended, _⟩
  rcases hwithin with ⟨⟨before, hbefore⟩, hafter, later, hlater⟩
  have hc₁ := hc.run? hbefore
  obtain ⟨y', hy', hxy⟩ := later_task? ((later_of_after? hc₁ hafter).trans
    (later_of_run? (hc₁.after? hafter) hlater)) hx
  rcases Option.some.inj (hy.symm.trans hy') with rfl
  -- The task does not broadcast in the end, so it did not at the time either.
  have hnone : c₁.copiedTo x s r.outcome = [] := by
    have hfalse : x.broadcasts = false := hxy.broadcasts_eq.symm.trans hbroadcasts
    rw [copiedTo, hfalse]
    rfl
  rcases completion_of_mem_copiedBy hafter hn with ⟨_, _, _, _, hcopied⟩
  rw [hcopied, happended.accepted, hnone, Nat.add_sub_cancel_left] at hn
  cases hn

/-- A copy stays a task that tells nobody of its end and is not copied itself. -/
theorem passive_of_mem_copiesOf (hc : c.Coherent) (hrun : c.run? events = some c') {t : TaskId}
    {d : Delivery} (hd : d ∈ c'.traffic.deliveries) (hid : d.id ∈ c.copiesOf t events) :
    ∃ y, c'.task? d.task = some y ∧ y.isSync = false ∧ y.broadcasts = false := by
  rcases within_of_mem_trace hrun hid with ⟨c₁, e, c₂, hwithin, hn⟩
  rcases copies_of_copiedBy hc hwithin hn with ⟨r, x, s, _, _, _, _, happended, hcopies⟩
  rcases hwithin with ⟨⟨before, hbefore⟩, hafter, later, hlater⟩
  rcases task_of_mem_copyDeliveries (hcopies d hd hn) with ⟨hle, hlt⟩
  rcases Nat.exists_eq_add_of_le hle with ⟨i, hi⟩
  rw [hi, Nat.add_lt_add_iff_left] at hlt
  -- The copy was made as the task with this number; later it is still that task.
  have hmade : c₂.task? d.task = some (Task.replicaCopy x.operators s.fragment) := by
    rw [hi, happended.task?, List.getElem?_replicate, if_pos hlt]
  have hc₂ := (hc.run? hbefore).after? hafter
  rcases later_task? (later_of_run? hc₂ hlater) hmade with ⟨y, hy, hxy⟩
  exact ⟨y, hy, hxy.isSync_eq, hxy.broadcasts_eq⟩

section Once

variable {s : Setup} (hrun : (build s).run? events = some c) {d : Delivery}
  (hd : d ∈ c.traffic.deliveries)
  (honce : (c.traffic.deliveries.countP fun e => e.task == d.task) = 1) {x : Task}
  {shape : StorageShape} (hx : c.task? d.task = some x) (hs : x.storage? = some shape)
include hrun hd honce hx hs

/-- All copies of a task that is delivered once come from the end of that delivery, so they are on
other members of the group, as often at most as those are listed. -/
theorem exists_copies_of_once : ∃ (n t : Nat) (us : List UnitId),
    us.Sublist (shape.fragment.master.groupIds.filter fun u => u != d.unit) ∧
      ∀ a ∈ c.traffic.deliveries, a.id ∈ (build s).copiesOf d.task events →
        a ∈ copyDeliveries n t us := by
  have hc := coherent_build s
  rcases copiesOf_of_once hc.sound hrun (Nat.le_of_eq honce) with
    hnone | ⟨c₁, e, c₂, hwithin, heq⟩
  · rw [hnone]
    exact ⟨0, 0, [], List.nil_sublist _, fun _ _ hid => nomatch hid⟩
  · rw [heq]
    cases hcopied : copiedBy d.task c₁ e with
    | nil => exact ⟨0, 0, [], List.nil_sublist _, fun _ _ hid => nomatch hid⟩
    | cons n ns =>
      have hn : n ∈ copiedBy d.task c₁ e := hcopied ▸ List.mem_cons_self
      rcases copies_of_copiedBy hc hwithin hn with ⟨r, y, shape', hr, htask, hy, hs', _, hcopies⟩
      rcases hwithin with ⟨⟨before, hbefore⟩, hafter, later, hlater⟩
      have hc₁ := hc.run? hbefore
      have hrest : c₁.run? (e :: later) = some c := by
        rw [run?, hafter]
        exact hlater
      have hsub := subperm_deliveries_of_run? hc₁.sound hrest
      have hrunning := mem_deliveries_of_running hr
      -- Its only delivery in the end is also its only one when it was executed.
      have hsame : r.delivery = d := eq_of_countP_eq_one honce (hsub.subset hrunning)
        (beq_iff_eq.mpr htask) hd (beq_self_eq_true d.task)
      have honce₁ : (c₁.traffic.deliveries.countP fun e => e.task == r.delivery.task) = 1 := by
        have hle := hsub.countP_le fun e => e.task == d.task
        have hpos : 0 < c₁.traffic.deliveries.countP fun e => e.task == d.task :=
          List.countP_pos_iff.mpr ⟨r.delivery, hrunning, beq_iff_eq.mpr htask⟩
        rw [htask]
        omega
      have hfragment : shape'.fragment = shape.fragment := by
        rcases later_task? (later_of_run? hc₁ hrest) hy with ⟨x', hx', hyx⟩
        rcases Option.some.inj (hx.symm.trans hx') with rfl
        have hboth := hyx.fragment?_eq
        rw [Task.fragment?_core, Task.fragment?_core, Task.fragment?, Task.fragment?, hs,
          hs'] at hboth
        exact (Option.some.inj hboth).symm
      have htargets := copyTargets_eq hc₁ (stamped_of_run? hbefore) hr honce₁ (htask ▸ hy) hs'
      rw [hsame, hfragment] at htargets
      refine ⟨c₁.accepted, c₁.tasks.length, c₁.copiedTo y shape' r.outcome,
        htargets ▸ c₁.copiedTo_sublist y shape' r.outcome, ?_⟩
      intro a ha hid
      exact hcopies a ha (hcopied ▸ hid)

/-- For the copies of a task that is delivered once, drivers are called on each other member of its
group as often at most as that is listed. -/
theorem countP_calls_le (v : UnitId) :
    (((build s).calls events).countP fun e =>
        decide (e.id ∈ (build s).copiesOf d.task events) && e.unit == v) ≤
      (shape.fragment.master.groupIds.filter fun u => u != d.unit).count v := by
  rcases calls_of_run? hrun with ⟨hcalled, hnodup⟩
  rcases exists_copies_of_once hrun hd honce hx hs with ⟨n, t, us, hsublist, hcopies⟩
  refine Nat.le_trans ?_ (hsublist.count_le v)
  -- Calls are of different deliveries, so there are no more of them than copies for the unit.
  rw [← map_unit_copyDeliveries n t us, List.count, List.countP_map,
    List.countP_eq_length_filter, List.countP_eq_length_filter]
  refine (List.subperm_of_subset ((hnodup.of_map _).filter _) ?_).length_le
  intro a ha
  rcases List.mem_filter.mp ha with ⟨hmem, hboth⟩
  rcases Bool.and_eq_true_iff.mp hboth with ⟨hid, hunit⟩
  have hdelivered : a ∈ c.traffic.deliveries :=
    (called_sublist c.traffic).subset (hcalled.mem_iff.mp hmem)
  exact List.mem_filter.mpr ⟨hcopies a hdelivered (of_decide_eq_true hid), hunit⟩

end Once

/-! ## Single moves -/

/-- The known members of a group but one, as often as they are listed. -/
def othersOf (c : Cluster) (fragment : Fragment) (u : UnitId) : List UnitId :=
  fragment.master.groupIds.filter fun v => c.knows v && v != u

theorem completion_of_running (hc : c.Sound) {r : Run} (hr : r ∈ c.running) {elapsed : Duration}
    (hstep : c.step? (.complete r.delivery.id elapsed) = some c') : c.Completion r elapsed c' := by
  rcases completion_of_complete? hstep with ⟨q, hid, hcompletion⟩
  have hq := List.mem_of_find?_eq_some hcompletion.found
  exact hc.run_eq hq hr hid ▸ hcompletion

end

theorem isOk_result (outcome : Outcome) :
    outcome.result.isOk = true ↔ ∃ out, outcome = .answer (.ok out) := by
  cases outcome with
  | answer r => cases r <;> simp [Outcome.result, Except.isOk, Except.toBool]
  | panicked => simp [Outcome.result, Except.isOk, Except.toBool]

/-- The units that get a copy are the known members of the group but the one that executed the
task. -/
theorem copiedTo_eq (hc : c.Coherent) (hstamped : c.Stamped) {r : Run} (hr : r ∈ c.running)
    (honce : (c.traffic.deliveries.countP fun d => d.task == r.delivery.task) = 1) {x : Task}
    {s : StorageShape} (hx : c.task? r.delivery.task = some x) (hs : x.storage? = some s)
    (hbroadcasts : x.broadcasts = true) :
    c.copiedTo x s r.outcome =
      if r.outcome.result.isOk then c.othersOf s.fragment r.delivery.unit else [] := by
  rw [copiedTo, hbroadcasts, copyTargets_eq hc hstamped hr honce hx hs, List.filter_filter,
    Bool.true_and, othersOf]

theorem finished_of_completion {r : Run} {elapsed : Duration} (h : c.Completion r elapsed c') :
    c'.finished = c.finished ++ [⟨r.delivery, .executed, r.outcome.result⟩] := by
  have hclose : (c.close r elapsed).finished =
      c.finished ++ [⟨r.delivery, .executed, r.outcome.result⟩] :=
    congrArg Traffic.finished (traffic_close c r elapsed)
  rw [h.after]
  split
  · exact (finished_broadcast _ _).trans hclose
  · exact hclose

/-- What a storage task ends with is its result, unless it has one already. -/
theorem result?_getD_of_completion [PatternLibrary] {r : Run} {elapsed : Duration}
    (h : c.Completion r elapsed c')
    {x : Task} (hx : c.task? r.delivery.task = some x) (hstorage : x.isStorage = true) :
    c'.result? r.delivery.task = some (x.result.getD r.outcome.result) := by
  have hkind : c.roster.HasStorage r.delivery.task :=
    ⟨x.core, task?_roster hx, x.core_isStorage.trans hstorage⟩
  obtain ⟨ls, hexplains⟩ := exists_explains_of_completion hkind h r.delivery.id
  have hglobal := isGlobal_eq_false (.inl (hkind.later hexplains.changes.later))
  have hforced : .forced ∉ ls := fun hmem => nomatch hexplains.forced hmem
  have hran : r.delivery.task ∉ ls.filterMap Label.ran? := by
    rw [hexplains.ran]
    exact List.not_mem_nil
  -- The end of the run is the only one.
  have hsettled : ls.filterMap Label.settled? = [(r.delivery.task, r.outcome.result)] := by
    have hnews := hexplains.settled
    rw [finished_of_completion h, List.map_append] at hnews
    exact (List.append_cancel_left hnews).symm
  rw [← result?_roster, hexplains.changes.result? hforced hglobal, firstResult?_ended hran,
    hsettled, result?_roster, result?, hx, Option.bind_some]
  cases x.result <;> simp [firstResult?]

/-- The end of the only delivery of a task is the result of the task. -/
theorem result?_of_completion [PatternLibrary] {s : Setup} (hrun : (build s).run? events = some c)
    (hresults : ∀ e ∈ events, e.setsResult = false) {r : Run} (hr : r ∈ c.running)
    (honce : (c.traffic.deliveries.countP fun d => d.task == r.delivery.task) = 1)
    {elapsed : Duration} (hstep : c.step? (.complete r.delivery.id elapsed) = some c') :
    c'.result? r.delivery.task = some r.outcome.result := by
  have hc := (coherent_build s).run? hrun
  obtain ⟨y, hy, hkind⟩ := hc.hasStorage (mem_deliveries_of_running hr)
  obtain ⟨x, hx, rfl⟩ := exists_task?_of_roster hy
  have hstorage : x.isStorage = true := x.core_isStorage.symm.trans hkind
  -- The task has not ended before, since its only delivery is with the worker.
  have hearlier : x.result = none := by
    by_contra hsome
    obtain ⟨r', hr'⟩ := Option.ne_none_iff_exists'.mp hsome
    have hresult : c.result? r.delivery.task = some r' := by
      rw [result?, hx, Option.bind_some, hr']
    obtain ⟨e, he, htask, _⟩ :=
      exists_ending_of_result? (storageResults_of_run? hresults hrun) hx hstorage hresult
    have htwo := two_le_countP (List.mem_map_of_mem he) htask hr rfl
    omega
  rw [result?_getD_of_completion (completion_of_running hc.sound hr hstep) hx hstorage, hearlier,
    Option.getD_none]

/-- A copy that ends, on a worker or refused by a loop, changes nothing but itself. -/
theorem onlyChanges_of_copy [PatternLibrary] (hc : c.Coherent) {d : Delivery}
    (hd : d ∈ c.traffic.deliveries)
    {x : Task} (hx : c.task? d.task = some x) (hsync : x.isSync = false)
    (hbroadcasts : x.broadcasts = false) :
    (∀ elapsed c', c.step? (.complete d.id elapsed) = some c' → OnlyChanges c c' d.task) ∧
    (∀ l rest c', c.unit? d.unit = some l → l.queue.items = d :: rest →
      c.step? (.dispatch d.unit) = some c' → OnlyChanges c c' d.task) := by
  have hstill : (c.task? d.task).any Task.isSync = false := by rw [hx, Option.any_some, hsync]
  refine ⟨?_, ?_⟩
  · intro elapsed c' hstep
    rcases completion_of_complete? hstep with ⟨r, hid, hcompletion⟩
    have hr := List.mem_of_find?_eq_some hcompletion.found
    obtain rfl : r.delivery = d := List.inj_on_of_nodup_map hc.sound.numbered.nodup
      (mem_deliveries_of_running hr) hd hid
    obtain ⟨s, hs⟩ : ∃ s, x.storage? = some s := by
      rcases hc.storage r.delivery hd with ⟨y, hy, hstorage⟩
      rcases Option.some.inj (hx.symm.trans hy) with rfl
      exact Option.isSome_iff_exists.mp hstorage
    rcases task?_close hx hs elapsed with ⟨y, _, hy, _, _, hsame, _⟩
    rw [hcompletion.after, hy, Option.any_some, hsame, hbroadcasts]
    exact onlyChanges_close hstill elapsed
  · intro l rest c' hl hitems hstep
    rcases dispatch_of_dispatch? hstep with ⟨l', d', rest', hl', _, _, hitems', hdispatch⟩
    rcases Option.some.inj (hl.symm.trans hl') with rfl
    rcases List.cons.inj (hitems.symm.trans hitems') with ⟨rfl, _⟩
    exact onlyChanges_of_dispatch hstill hdispatch

theorem count_group_le {g : StorageUnit} (hg : g.IsGroup) (u v : UnitId) :
    (g.groupIds.filter fun w => w != u).count v ≤ if v ∈ g.groupIds ∧ v ≠ u then 1 else 0 := by
  split
  · exact List.nodup_iff_count_le_one.mp (hg.nodup.filter _) v
  · rename_i hother
    refine Nat.le_of_eq (List.count_eq_zero.mpr fun hmem => hother ?_)
    rcases List.mem_filter.mp hmem with ⟨hv, hne⟩
    exact ⟨hv, bne_iff_ne.mp hne⟩

/-- What writes to a group do to its members, after any history:

* if a task that broadcasts, and is delivered once, is executed by a driver, it gets the result of
  that; if the driver succeeds, a new task comes to the queue of each known member of its group but
  the one that executed it, once for each time that the member is listed and in the order of the
  list; it has the same operators and the same fragment, is neither sync nor broadcasts, and nothing
  has happened to it; if the driver does not succeed, nothing comes to any queue;
* a loop that takes a delivery appends nothing, whether it refuses the delivery or not;
* the end of a copy brings in no further copy, and touches no follower and no other task;
* for the copies of a task that is delivered once, to a group made by attaching replicas, a driver
  is called once at most on each other member, and on no other unit. -/
theorem write_copied_to_group [PatternLibrary] (s : Setup) {events : List Event} {c : Cluster}
    (hrun : (build s).run? events = some c) (hresults : ∀ e ∈ events, e.setsResult = false) :
    (∀ r elapsed c' x shape, r ∈ c.running →
      c.step? (.complete r.delivery.id elapsed) = some c' →
      c.task? r.delivery.task = some x → x.storage? = some shape → x.broadcasts = true →
      (c.traffic.deliveries.countP fun d => d.task == r.delivery.task) = 1 →
        c'.result? r.delivery.task = some r.outcome.result ∧
        ((∃ out, r.outcome = .answer (.ok out)) →
          Appended c c'
            (List.replicate (c.othersOf shape.fragment r.delivery.unit).length
              { operators := x.operators
                isSync := false
                broadcasts := false
                result := none
                span := none
                follower := none
                shape := .storage
                  { fragment := shape.fragment, session := none, stamp := none,
                    onDummy := false } })
            (copyDeliveries c.accepted c.tasks.length
              (c.othersOf shape.fragment r.delivery.unit))) ∧
        ((¬∃ out, r.outcome = .answer (.ok out)) → Appended c c' [] [])) ∧
    (∀ u c', c.step? (.dispatch u) = some c' → Drained c c') ∧
    (∀ t d, d ∈ c.traffic.deliveries → d.id ∈ (build s).copiesOf t events →
      (build s).copiesOf d.task events = [] ∧
      (∀ elapsed c', c.step? (.complete d.id elapsed) = some c' → OnlyChanges c c' d.task) ∧
      (∀ l rest c', c.unit? d.unit = some l → l.queue.items = d :: rest →
        c.step? (.dispatch d.unit) = some c' → OnlyChanges c c' d.task)) ∧
    (∀ d x shape v, d ∈ c.traffic.deliveries →
      (c.traffic.deliveries.countP fun e => e.task == d.task) = 1 →
      c.task? d.task = some x → x.storage? = some shape → shape.fragment.master.IsGroup →
        (((build s).calls events).countP fun e =>
            decide (e.id ∈ (build s).copiesOf d.task events) && e.unit == v) ≤
          if v ∈ shape.fragment.master.groupIds ∧ v ≠ d.unit then 1 else 0) := by
  have hc := (coherent_build s).run? hrun
  refine ⟨?_, ?_, ?_, ?_⟩
  · intro r elapsed c' x shape hr hstep hx hs hbroadcasts honce
    -- A task that is delivered once is stamped with the unit of that delivery, which gets no copy.
    have happended := appended_of_completion (completion_of_running hc.sound hr hstep) hx hs
    rw [copiedTo_eq hc (stamped_of_run? hrun) hr honce hx hs hbroadcasts,
      Task.replicaCopy_eq] at happended
    refine ⟨result?_of_completion hrun hresults hr honce hstep, fun hok => ?_, fun hfailed => ?_⟩
    · rwa [if_pos ((isOk_result _).mpr hok)] at happended
    · rwa [if_neg (mt (isOk_result _).mp hfailed)] at happended
  · intro u c' hstep
    rcases dispatch_of_dispatch? hstep with ⟨l, d, rest, hl, _, _, hitems, hdispatch⟩
    exact drained_of_dispatch hc.sound (mem_units_of_unit? hl) hitems hdispatch
  · intro t d hd hid
    rcases passive_of_mem_copiesOf (coherent_build s) hrun hd hid with ⟨y, hy, hsync, hbroadcasts⟩
    exact ⟨copiesOf_eq_nil (coherent_build s) hrun hy hbroadcasts,
      onlyChanges_of_copy hc hd hy hsync hbroadcasts⟩
  · intro d x shape v hd honce hx hs hgroup
    exact Nat.le_trans (countP_calls_le hrun hd honce hx hs v) (count_group_le hgroup d.unit v)

/-- A node with an engine whose outside driver does whatever it is asked for. -/
def groupSetup : Setup :=
  { sampleSetup with factories := [("outside", .scripted (Script.new [] [] none))] }

/-- All series at all times, held by a group of three units, of which one does not become known. -/
def groupFragment : Fragment :=
  { sampleFragment with master :=
    { StorageUnit.newMaster "unit" 1 with replicas :=
      [StorageUnit.newReplica "lost" 1 "unit", StorageUnit.newReplica "other" 1 "unit"] } }

/-- Two rows of one series, which are written. -/
def groupBatch : Batch :=
  ⟨[⟨⟨keyName, .int64, false, Tags.empty⟩, [some (.int 1), some (.int 2)]⟩,
    ⟨⟨"cpu", .int64, true, Tags.empty⟩, [some (.int 7), none]⟩], 2, by simp⟩

/-- An insertion that broadcasts comes to a worker. -/
def groupEvents : List Event :=
  [.asked (.notifyUnit none (some (StorageUnit.newMaster "unit" 1))),
    .asked (.notifyUnit none (some (StorageUnit.newReplica "other" 1 "unit"))),
    .asked (.newStorage [.insert groupBatch] groupFragment true true none), .asked (.commit 0),
    .moved (.resolve "unit"), .moved (.dispatch "unit"), .moved (.start 1)]

theorem write_copied_to_group_sample : ∃ c c', (build groupSetup).run? groupEvents = some c ∧
    c.step? (.complete 0 Duration.zero) = some c' ∧
    Appended c c'
      [{ operators := [.insert groupBatch]
         isSync := false
         broadcasts := false
         result := none
         span := none
         follower := none
         shape := .storage
           { fragment := groupFragment, session := none, stamp := none, onDummy := false } }]
      [⟨1, 1, "other"⟩] := by
  obtain ⟨c, hrun, r, hr, c', hstep, x, hx, shape, hs, hid, hbroadcasts, honce, hok, hothers,
      haccepted, hlength⟩ :
      ∃ c ∈ (build groupSetup).run? groupEvents, ∃ r ∈ c.running,
        ∃ c' ∈ c.step? (.complete 0 Duration.zero), ∃ x ∈ c.task? 0, ∃ shape ∈ x.storage?,
          r.delivery = ⟨0, 0, "unit"⟩ ∧ x.broadcasts = true ∧
          (c.traffic.deliveries.countP fun d => d.task == 0) = 1 ∧
          r.outcome.result.isOk = true ∧ c.othersOf shape.fragment "unit" = ["other"] ∧
          c.accepted = 1 ∧ c.tasks.length = 1 := by
    decide
  have hall := (write_copied_to_group groupSetup hrun (by decide)).1 r Duration.zero c' x shape hr
    (by rw [hid]; exact hstep) (by rw [hid]; exact hx) hs hbroadcasts (by rw [hid]; exact honce)
  have happended := hall.2.1 ((isOk_result r.outcome).mp hok)
  rw [hid, hothers, haccepted, hlength] at happended
  -- A worker leaves the operators and the fragment of the task as they were made.
  have hmade : ((build groupSetup).run? groupEvents).bind
      (fun c => (c.task? 0).bind fun x => x.storage?.map fun shape =>
        (x.operators, shape.fragment)) = some ([.insert groupBatch], groupFragment) := rfl
  rw [show (build groupSetup).run? groupEvents = some c from hrun, Option.bind_some,
    show c.task? 0 = some x from hx, Option.bind_some, show x.storage? = some shape from hs,
    Option.map_some] at hmade
  obtain ⟨hoperators, hfragment⟩ := Prod.mk.inj (Option.some.inj hmade)
  rw [hoperators, hfragment] at happended
  exact ⟨c, c', hrun, hstep, happended⟩

end Cluster
end SeriesExec
