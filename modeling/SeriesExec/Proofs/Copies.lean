import SeriesExec.Proofs.Conservation
import SeriesExec.Proofs.Stamps

/-!
# Copies — what the end of a write does to the other members of its group

A worker that has ended a task which broadcasts makes copies of it, numbered on in the order of the
members of the group.  This file is about single moves; it defines:

* `copyDeliveries` — the deliveries that copies become;
* `Cluster.Appended` — the tasks that are made, and the deliveries that come to the queues, and
  nothing else;
* `Cluster.OnlyChanges` — nothing but one task is different;
* `Cluster.Drained` — nothing has come to any queue.

Main statements: the end of a delivery makes one copy for each known member of the group but the one
that executed the task (`appended_of_completion`, `copyTargets_eq`), the end of a task that is not
sync changes no other task (`onlyChanges_close`, `onlyChanges_of_dispatch`), and a loop that takes a
delivery appends nothing (`drained_of_dispatch`).
-/

namespace SeriesExec

open Traffic Roster

/-- The unit with further deliveries at the end of its queue, those of them that are its own. -/
def UnitLoop.receive (l : UnitLoop) (new : List Delivery) : UnitLoop :=
  { l with queue := ⟨l.queue.items ++ new.filter fun d => d.unit == l.id⟩ }

theorem UnitLoop.receive_nil (l : UnitLoop) : l.receive [] = l := by
  rw [receive, List.filter_nil, List.append_nil]

theorem UnitLoop.receive_append (l : UnitLoop) (new new' : List Delivery) :
    l.receive (new ++ new') = (l.receive new).receive new' := by
  simp only [receive, List.filter_append, List.append_assoc]

/-- One delivery is put at the end of the queue of its unit. -/
theorem UnitLoop.map_receive_singleton (units : List UnitLoop) (d : Delivery) :
    (units.map fun l => l.receive [d]) =
      units.map fun l => if l.id = d.unit then { l with queue := l.queue.push d } else l := by
  refine List.map_congr_left fun l _ => ?_
  by_cases hid : l.id = d.unit
  · simp [hid, receive, Queue.push]
  · simp [hid, receive, Ne.symm hid]

/-- New tasks on the listed units, numbered on from a delivery and a task. -/
def copyDeliveries : Nat → Nat → List UnitId → List Delivery
  | _, _, [] => []
  | d, t, u :: us => ⟨d, t, u⟩ :: copyDeliveries (d + 1) (t + 1) us

theorem length_copyDeliveries (d t : Nat) (us : List UnitId) :
    (copyDeliveries d t us).length = us.length := by
  induction us generalizing d t with
  | nil => rfl
  | cons u us ih => exact congrArg (· + 1) (ih (d + 1) (t + 1))

theorem map_unit_copyDeliveries (d t : Nat) (us : List UnitId) :
    (copyDeliveries d t us).map Delivery.unit = us := by
  induction us generalizing d t with
  | nil => rfl
  | cons u us ih => exact congrArg (u :: ·) (ih (d + 1) (t + 1))

theorem map_id_copyDeliveries (d t : Nat) (us : List UnitId) :
    (copyDeliveries d t us).map Delivery.id = List.range' d us.length := by
  induction us generalizing d t with
  | nil => rfl
  | cons u us ih => exact congrArg (d :: ·) (ih (d + 1) (t + 1))

theorem task_of_mem_copyDeliveries {d t : Nat} {us : List UnitId} {e : Delivery}
    (he : e ∈ copyDeliveries d t us) : t ≤ e.task ∧ e.task < t + us.length := by
  induction us generalizing d t with
  | nil => cases he
  | cons u us ih =>
    rw [List.length_cons]
    rcases List.mem_cons.mp he with rfl | he
    · exact ⟨Nat.le_refl t, Nat.lt_add_of_pos_right (Nat.succ_pos _)⟩
    · rcases ih he with ⟨hle, hlt⟩
      exact ⟨Nat.le_of_succ_le hle, Nat.lt_of_lt_of_eq hlt (Nat.succ_add_eq_add_succ t us.length)⟩

namespace Cluster

variable {c c' c₁ : Cluster}

/-! ## Sending copies -/

/-- Whether a unit is known. -/
def knows (c : Cluster) (u : UnitId) : Bool :=
  (c.unit? u).isSome

/-- Exactly the tasks `made` are made, and exactly the deliveries `new` come to the queues of their
units, in this order. -/
structure Appended (c c' : Cluster) (made : List Task) (new : List Delivery) : Prop where
  length : c'.tasks.length = c.tasks.length + made.length
  made : c'.tasks.drop c.tasks.length = made
  accepted : c'.accepted = c.accepted + new.length
  units : c'.units = c.units.map fun l => l.receive new

theorem Appended.of_same (hlength : c'.tasks.length = c.tasks.length) (hunits : c'.units = c.units)
    (haccepted : c'.accepted = c.accepted) : Appended c c' [] [] where
  length := hlength
  made := List.drop_eq_nil_of_le (Nat.le_of_eq hlength)
  accepted := haccepted
  units := by
    rw [hunits]
    exact (List.map_id'' UnitLoop.receive_nil c.units).symm

theorem unit?_congr (h : c'.units = c.units) (u : UnitId) : c'.unit? u = c.unit? u := by
  rw [unit?, unit?, h]

/-- A unit that is known gets one new task. -/
theorem sendCopy_of_knows {u : UnitId} (h : c.knows u = true) (task : Task) (fragment : Fragment) :
    (sendCopy task fragment c u).tasks =
        c.tasks ++ [Task.replicaCopy task.operators fragment] ∧
      (sendCopy task fragment c u).accepted = c.accepted + 1 ∧
      (sendCopy task fragment c u).units =
        c.units.map fun l => l.receive [⟨c.accepted, c.tasks.length, u⟩] := by
  rcases Option.isSome_iff_exists.mp h with ⟨l, hl⟩
  have hl' : (c.addTask (Task.replicaCopy task.operators fragment)).1.unit? u = some l := hl
  have hsend : sendCopy task fragment c u =
      { (c.addTask (Task.replicaCopy task.operators fragment)).1 with
        accepted := c.accepted + 1 }.modifyUnit u fun l =>
          { l with queue := l.queue.push ⟨c.accepted, c.tasks.length, u⟩ } := by
    unfold sendCopy enqueue
    dsimp only
    rw [hl']
    rfl
  rw [hsend]
  exact ⟨rfl, rfl, (UnitLoop.map_receive_singleton c.units ⟨c.accepted, c.tasks.length, u⟩).symm⟩

theorem sendCopy_of_not_knows {u : UnitId} (h : c.knows u = false) (task : Task)
    (fragment : Fragment) : sendCopy task fragment c u = c := by
  have hnone : (c.addTask (Task.replicaCopy task.operators fragment)).1.unit? u = none := by
    rw [knows, Option.isSome_eq_false_iff, Option.isNone_iff_eq_none] at h
    exact h
  unfold sendCopy enqueue
  dsimp only
  rw [hnone]

theorem knows_of_receive {new : List Delivery}
    (h : c'.units = c.units.map fun l => l.receive new) : c'.knows = c.knows := by
  funext u
  have hcomp : ((fun l : UnitLoop => l.id == u) ∘ fun l : UnitLoop => l.receive new) =
      fun l => l.id == u := rfl
  rw [knows, knows, unit?, h, List.find?_map, hcomp, Option.isSome_map, unit?]

/-- Of several units, those that are known get one new task each, in the order in which they are
listed. -/
theorem sendCopies (task : Task) (fragment : Fragment) (us : List UnitId) (c : Cluster) :
    (us.foldl (sendCopy task fragment) c).tasks = c.tasks ++
        List.replicate (us.filter c.knows).length (Task.replicaCopy task.operators fragment) ∧
      (us.foldl (sendCopy task fragment) c).accepted =
        c.accepted + (us.filter c.knows).length ∧
      (us.foldl (sendCopy task fragment) c).units = c.units.map fun l =>
        l.receive (copyDeliveries c.accepted c.tasks.length (us.filter c.knows)) := by
  induction us generalizing c with
  | nil =>
    refine ⟨(List.append_nil c.tasks).symm, rfl, ?_⟩
    exact (List.map_id'' UnitLoop.receive_nil c.units).symm
  | cons u rest ih =>
    rw [List.foldl_cons]
    -- An unknown unit is passed by; a known one gets the next numbers.
    cases hknown : c.knows u with
    | false =>
      rw [sendCopy_of_not_knows hknown, List.filter_cons_of_neg (by simp [hknown])]
      exact ih c
    | true =>
      rcases sendCopy_of_knows hknown task fragment with ⟨htasks, haccepted, hunits⟩
      rcases ih (sendCopy task fragment c u) with ⟨htasks', haccepted', hunits'⟩
      rw [knows_of_receive hunits] at htasks' haccepted' hunits'
      rw [List.filter_cons_of_pos hknown, List.length_cons]
      refine ⟨?_, ?_, ?_⟩
      · rw [htasks', htasks, List.append_assoc, List.replicate_succ]
        rfl
      · rw [haccepted', haccepted]
        omega
      · rw [hunits', hunits, List.map_map]
        refine List.map_congr_left ?_
        intro l _
        rw [haccepted, htasks, List.length_append, List.length_singleton]
        exact (l.receive_append [_] _).symm

theorem appended_broadcast {t : TaskId} {x : Task} {s : StorageShape} (hx : c.task? t = some x)
    (hs : x.storage? = some s) :
    Appended c (c.broadcast t)
      (List.replicate ((copyTargets s).filter c.knows).length
        (Task.replicaCopy x.operators s.fragment))
      (copyDeliveries c.accepted c.tasks.length ((copyTargets s).filter c.knows)) := by
  have hbroadcast : c.broadcast t = (copyTargets s).foldl (sendCopy x s.fragment) c := by
    simp only [broadcast, hx, hs]
  rcases sendCopies x s.fragment (copyTargets s) c with ⟨htasks, haccepted, hunits⟩
  rw [← hbroadcast] at htasks haccepted hunits
  refine ⟨?_, ?_, ?_, hunits⟩
  · rw [htasks, List.length_append]
  · rw [htasks, List.drop_left]
  · rw [haccepted, length_copyDeliveries]

/-! ## The end of a delivery -/

theorem length_settleTask (c : Cluster) (t : TaskId) (r : TaskResult) :
    (c.settleTask t r).tasks.length = c.tasks.length :=
  settleTask_keeps (g := fun c => c.tasks.length) (fun _ _ _ => List.length_modify _ _ _)
    (fun _ _ => List.length_modify _ _ _) (fun _ _ => rfl) c t r

theorem length_close (c : Cluster) (r : Run) (elapsed : Duration) :
    (c.close r elapsed).tasks.length = c.tasks.length := by
  change (settleTask _ r.delivery.task r.outcome.result).tasks.length = _
  rw [length_settleTask]
  refine (List.length_modify _ _ _).trans ?_
  exact congrArg (fun b : Backdrop => b.tasks.length) (backdrop_observe _ _ _)

/-- A task that ends stays the same for its copies. -/
theorem task?_close [PatternLibrary] {r : Run} {x : Task} {s : StorageShape}
    (hx : c.task? r.delivery.task = some x) (hs : x.storage? = some s) (elapsed : Duration) :
    ∃ y s', (c.close r elapsed).task? r.delivery.task = some y ∧ y.storage? = some s' ∧
      y.operators = x.operators ∧ y.broadcasts = x.broadcasts ∧ s'.fragment = s.fragment ∧
      copyTargets s' = copyTargets s := by
  have hstorage : c.roster.HasStorage r.delivery.task :=
    ⟨x.core, task?_roster hx, (Task.core_isStorage x).trans (Option.isSome_iff_exists.mpr ⟨s, hs⟩)⟩
  rcases later_task? (change_close hstorage elapsed).later hx with ⟨y, hy, hlater⟩
  have hsame : y.fragment? = x.fragment? := by
    rw [← y.fragment?_core, hlater.fragment?_eq, x.fragment?_core]
  obtain ⟨s', hs', hfragment⟩ : ∃ s', y.storage? = some s' ∧ s'.fragment = s.fragment :=
    Option.map_eq_some_iff.mp (hsame.trans (congrArg (Option.map StorageShape.fragment) hs))
  -- Whoever executed the task has stamped it before, and the end leaves stamps alone.
  have hstamp : s'.stamp = s.stamp := by
    have hboth := congrFun (stamp?_close c r elapsed) r.delivery.task
    rw [stamp?, hy, stamp?, hx, Option.bind_some, Option.bind_some, Task.stamp?, hs', Task.stamp?,
      hs] at hboth
    exact hboth
  refine ⟨y, s', hy, hs', hlater.operators_eq, hlater.broadcasts_eq, hfragment, ?_⟩
  rw [copyTargets, copyTargets, hfragment, hstamp]

/-- The units that get a copy once a delivery of the task has ended in this way. -/
def copiedTo (c : Cluster) (x : Task) (s : StorageShape) (outcome : Outcome) : List UnitId :=
  if x.broadcasts && outcome.result.isOk then (copyTargets s).filter c.knows else []

/-- The end of a delivery makes one copy of the task for each unit that is to get one, and nothing
else comes to any queue. -/
theorem appended_of_completion [PatternLibrary] {r : Run} {elapsed : Duration} {x : Task}
    {s : StorageShape} (hc : c.Completion r elapsed c') (hx : c.task? r.delivery.task = some x)
    (hs : x.storage? = some s) :
    Appended c c'
      (List.replicate (c.copiedTo x s r.outcome).length
        (Task.replicaCopy x.operators s.fragment))
      (copyDeliveries c.accepted c.tasks.length (c.copiedTo x s r.outcome)) := by
  rcases task?_close hx hs elapsed with
    ⟨y, s', hy, hs', hoperators, hbroadcasts, hfragment, htargets⟩
  have hlength := length_close c r elapsed
  have hunits : (c.close r elapsed).units = c.units :=
    congrArg Traffic.units (traffic_close c r elapsed)
  have haccepted : (c.close r elapsed).accepted = c.accepted :=
    congrArg Traffic.accepted (traffic_close c r elapsed)
  -- The end of the delivery itself moves no unit and makes no task, so what is appended is what
  -- the broadcast appends.
  have hknows : (c.close r elapsed).knows = c.knows :=
    funext fun u => congrArg Option.isSome (unit?_congr hunits u)
  rw [hc.after, hy, Option.any_some, hbroadcasts, copiedTo]
  split
  · have hall := appended_broadcast hy hs'
    rw [htargets, hknows, hoperators, hfragment, haccepted, hlength] at hall
    exact ⟨hlength ▸ hall.length, hlength ▸ hall.made, haccepted ▸ hall.accepted,
      hunits ▸ hall.units⟩
  · exact .of_same hlength hunits haccepted

theorem copiedTo_sublist (c : Cluster) (x : Task) (s : StorageShape) (outcome : Outcome) :
    (c.copiedTo x s outcome).Sublist (copyTargets s) := by
  unfold copiedTo
  split
  · exact List.filter_sublist
  · exact List.nil_sublist _

/-- New deliveries of known units are in their queues. -/
theorem Appended.mem_queued {made : List Task} {new : List Delivery} (h : Appended c c' made new)
    {d : Delivery} (hd : d ∈ new) (hknows : c.knows d.unit = true) : d ∈ c'.traffic.queued := by
  rcases Option.isSome_iff_exists.mp hknows with ⟨l, hl⟩
  refine List.mem_flatMap.mpr ⟨l.receive new, ?_, ?_⟩
  · change l.receive new ∈ c'.units
    rw [h.units]
    exact List.mem_map_of_mem (mem_units_of_unit? hl)
  · refine List.mem_append_right _ (List.mem_filter.mpr ⟨hd, ?_⟩)
    exact beq_iff_eq.mpr (id_of_unit? hl).symm

theorem Appended.task? {made : List Task} {new : List Delivery} (h : Appended c c' made new)
    (i : Nat) : c'.task? (c.tasks.length + i) = made[i]? := by
  rw [← h.made, List.getElem?_drop]
  rfl

/-! ## The unit that executed a task -/

theorem nodup_deliveries (h : c.Sound) : c.traffic.deliveries.Nodup :=
  h.numbered.nodup.of_map _

/-- A delivery that has come further than its queue has left it. -/
theorem notMem_queued (h : c.Sound) {d : Delivery} (hd : d ∈ c.traffic.handed) :
    d ∉ c.traffic.queued := by
  intro hqueued
  have hnodup := nodup_deliveries h
  rw [deliveries, List.append_assoc, List.append_assoc] at hnodup
  exact List.disjoint_of_nodup_append hnodup hqueued hd

theorem notMem_queued_of_running (h : c.Sound) {r : Run} (hr : r ∈ c.running) :
    r.delivery ∉ c.traffic.queued :=
  notMem_queued h (List.mem_append_right _ (List.mem_append_left _ (List.mem_map_of_mem hr)))

theorem copyTargets_eq (hc : c.Coherent) (hstamped : c.Stamped) {r : Run} (hr : r ∈ c.running)
    (honce : (c.traffic.deliveries.countP fun d => d.task == r.delivery.task) = 1) {x : Task}
    {s : StorageShape} (hx : c.task? r.delivery.task = some x) (hs : x.storage? = some s) :
    copyTargets s = s.fragment.master.groupIds.filter fun u => u != r.delivery.unit := by
  have hstamp := hstamped.stamp?_eq (mem_deliveries_of_running hr)
    (notMem_queued_of_running hc.sound hr) fun d hd htask =>
      eq_of_countP_eq_one honce hd (beq_iff_eq.mpr htask) (mem_deliveries_of_running hr)
        (beq_self_eq_true _)
  rw [stamp?, hx, Option.bind_some, Task.stamp?, hs, Option.bind_some] at hstamp
  rw [copyTargets, hstamp]
  rfl

/-! ## Tasks that nobody learns of -/

/-- Nothing but the task `t` is different, neither among the tasks nor in the memory stage. -/
def OnlyChanges (c c' : Cluster) (t : TaskId) : Prop :=
  c'.memory = c.memory ∧ ∀ i, i ≠ t → c'.task? i = c.task? i

theorem onlyChanges_modifyTask (c : Cluster) (t : TaskId) (f : Task → Task) :
    OnlyChanges c (c.modifyTask t f) t :=
  ⟨rfl, fun i hi => by rw [task?_modifyTask, if_neg hi]⟩

theorem OnlyChanges.trans {t : TaskId} {c₂ : Cluster} (h : OnlyChanges c c₁ t)
    (h' : OnlyChanges c₁ c₂ t) : OnlyChanges c c₂ t :=
  ⟨h'.1.trans h.1, fun i hi => (h'.2 i hi).trans (h.2 i hi)⟩

theorem onlyChanges_of_backdrop (h : c'.backdrop = c.backdrop) (t : TaskId) :
    OnlyChanges c c' t :=
  ⟨congrArg Backdrop.memory h, fun i _ => task?_congr h i⟩

/-- The end of a task that is not sync reaches no follower. -/
theorem onlyChanges_settleTask {t : TaskId} (hsync : (c.task? t).any Task.isSync = false)
    (r : TaskResult) : OnlyChanges c (c.settleTask t r) t := by
  have hsettle : c.settleTask t r = c.modifyTask t fun x => x.setResult r := by
    -- A result does not make the task sync.
    have hstill : ((c.modifyTask t fun x => x.setResult r).task? t).any Task.isSync = false := by
      rw [task?_modifyTask, if_pos rfl, ← hsync]
      cases c.task? t <;> rfl
    unfold settleTask
    dsimp only
    rw [hstill]
    rfl
  exact hsettle ▸ onlyChanges_modifyTask c t _

theorem onlyChanges_close {r : Run} (hsync : (c.task? r.delivery.task).any Task.isSync = false)
    (elapsed : Duration) : OnlyChanges c (c.close r elapsed) r.delivery.task := by
  -- The three things that happen on the way touch no other task.
  generalize hfreed : ({ c with running := c.running.filter fun q =>
    q.delivery.id != r.delivery.id } : Cluster) = freed
  have hobserved : OnlyChanges c (freed.observe r.delivery.task elapsed) r.delivery.task :=
    onlyChanges_of_backdrop (hfreed ▸ backdrop_observe _ _ _) _
  have hsame : (freed.observe r.delivery.task elapsed).task? r.delivery.task =
      c.task? r.delivery.task :=
    task?_congr (hfreed ▸ backdrop_observe _ _ _) r.delivery.task
  have hmarked := hobserved.trans (onlyChanges_modifyTask _ _ fun x => x.setSpan elapsed)
  have hstill : (((freed.observe r.delivery.task elapsed).modifyTask r.delivery.task
      fun x => x.setSpan elapsed).task? r.delivery.task).any Task.isSync = false := by
    rw [task?_modifyTask, if_pos rfl, hsame, ← hsync]
    cases c.task? r.delivery.task <;> rfl
  have hsettled := hmarked.trans (onlyChanges_settleTask hstill r.outcome.result)
  subst hfreed
  exact hsettled

theorem onlyChanges_of_dispatch {l : UnitLoop} {d : Delivery} {rest : List Delivery}
    (hsync : (c.task? d.task).any Task.isSync = false) (h : c.Dispatch l d rest c') :
    OnlyChanges c c' d.task := by
  have htaken : OnlyChanges c (c.takeFirst l d rest) d.task := onlyChanges_modifyTask _ d.task _
  have hstill : ((c.takeFirst l d rest).task? d.task).any Task.isSync = false := by
    rw [takeFirst, task?_modifyTask, if_pos rfl, ← hsync]
    change ((c.task? d.task).map _).any _ = _
    rcases c.task? d.task with _ | ⟨_, _, _, _, _, _, _ | _ | _⟩ <;> rfl
  cases h with
  | notReady _ => exact htaken.trans (onlyChanges_settleTask hstill _)
  | overloaded _ _ _ =>
    exact htaken.trans (onlyChanges_settleTask (c := (c.takeFirst l d rest).serve l) hstill _)
  | submitted _ _ _ => exact htaken

/-! ## Taking a delivery -/

/-- Nothing has come to any queue. -/
def Drained (c c' : Cluster) : Prop :=
  c'.tasks.length = c.tasks.length ∧ c'.accepted = c.accepted ∧
    ∀ l' ∈ c'.units, ∃ l ∈ c.units, l.id = l'.id ∧ l'.queue.items <:+ l.queue.items

theorem Drained.trans {c₂ : Cluster} (h : Drained c c₁) (h' : Drained c₁ c₂) : Drained c c₂ := by
  refine ⟨h'.1.trans h.1, h'.2.1.trans h.2.1, ?_⟩
  intro l₂ hl₂
  rcases h'.2.2 l₂ hl₂ with ⟨l₁, hl₁, hid₁, hsuffix₁⟩
  rcases h.2.2 l₁ hl₁ with ⟨l, hl, hid, hsuffix⟩
  exact ⟨l, hl, hid.trans hid₁, hsuffix₁.trans hsuffix⟩

theorem drained_of_same (hlength : c'.tasks.length = c.tasks.length)
    (haccepted : c'.accepted = c.accepted) (hunits : c'.units = c.units) : Drained c c' :=
  ⟨hlength, haccepted, fun l hl => ⟨l, hunits ▸ hl, rfl, List.suffix_refl _⟩⟩

theorem drained_reject (c : Cluster) (d : Delivery) (fate : Fate) (e : Error) :
    Drained c (c.reject d fate e) :=
  drained_of_same (length_settleTask c d.task (.error e))
    (congrArg Traffic.accepted (traffic_reject c d fate e))
    (congrArg Traffic.units (traffic_reject c d fate e))

theorem drained_serve (c : Cluster) (l : UnitLoop) : Drained c (c.serve l) := by
  refine ⟨rfl, rfl, ?_⟩
  intro l' hl'
  rcases List.mem_map.mp hl' with ⟨m, hm, rfl⟩
  refine ⟨m, hm, ?_⟩
  split
  · exact ⟨rfl, List.suffix_refl _⟩
  · exact ⟨rfl, List.suffix_refl _⟩

/-- A loop that takes a delivery appends nothing, whether it refuses the delivery or not. -/
theorem drained_of_dispatch (hc : c.Sound) {l : UnitLoop} {d : Delivery} {rest : List Delivery}
    (hl : l ∈ c.units) (hitems : l.queue.items = d :: rest) (h : c.Dispatch l d rest c') :
    Drained c c' := by
  have htaken : Drained c (c.takeFirst l d rest) := by
    refine ⟨List.length_modify _ _ _, rfl, ?_⟩
    intro l' hl'
    rcases List.mem_map.mp hl' with ⟨m, hm, rfl⟩
    refine ⟨m, hm, ?_⟩
    split
    · rename_i hid
      -- Only one unit has this number, so it is the queue of `l` that gets shorter.
      rw [List.inj_on_of_nodup_map hc.orderly.unitsNodup hm hl hid]
      exact ⟨rfl, hitems ▸ List.suffix_cons d rest⟩
    · exact ⟨rfl, List.suffix_refl _⟩
  cases h with
  | notReady _ => exact htaken.trans (drained_reject _ d _ _)
  | overloaded _ _ _ =>
    exact (htaken.trans (drained_serve _ l)).trans (drained_reject _ d _ _)
  | submitted _ _ _ =>
    exact (htaken.trans (drained_serve _ l)).trans (drained_of_same rfl rfl rfl)

end Cluster
end SeriesExec
