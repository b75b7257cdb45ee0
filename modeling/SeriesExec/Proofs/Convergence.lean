import SeriesExec.Proofs.Sequential
import SeriesExec.Proofs.Writes

/-!
# Convergence — all members of a group come to hold the same batches

The master of a group executes the writes of the group in the order in which they come, and every
other member gets a copy of each that succeeds when it ends on the master.  If every engine has one
worker, the copies are executed in the order in which the master has ended the writes, and what
fails leaves nothing behind.  This file defines:

* `Traffic.succeededOn` — the deliveries of a unit that have succeeded;
* `Cluster.leftBy` and `Cluster.writesOf` — the batches that deliveries leave on a unit that starts
  empty, and the writes among them, which alone count for that;
* `Cluster.Echoes` — the lines of the other members have what the master has written with success;
* `Cluster.storeOf?` — the store of a unit.

Main statements: every event keeps the lines an echo of the master (`Echoes.after?`), so a history
does (`echoes_of_run?`); a member holds what the deliveries to it have left (`batches_eq_leftBy`);
and so all members of a group hold the same batches once nothing is left to do
(`replicas_converge`).
-/

namespace SeriesExec

open Traffic Store

namespace Store

variable [PatternLibrary]

/-- What leaves the batches as they are may be left out. -/
theorem foldl_written_filter {α : Type} (opsOf : α → List Operator) {keep : α → Bool} {as : List α}
    (h : ∀ a ∈ as, keep a = false → ∀ batches, written (opsOf a) batches = batches)
    (batches : List Batch) :
    (as.filter keep).foldl (fun bs a => written (opsOf a) bs) batches =
      as.foldl (fun bs a => written (opsOf a) bs) batches := by
  rw [List.foldl_filter]
  refine List.foldl_ext _ _ _ ?_
  intro bs a ha
  cases hkeep : keep a with
  | true => exact if_pos rfl
  | false => exact (h a ha hkeep bs).symm

/-- A single operator that a store has not been able to execute writes nothing. -/
theorem written_of_answer {s : Store} {call : StoreCall} {u : UnitId} {op : Operator}
    (hstamp : call.stamp = some u) (hops : call.operators = [op])
    (hfailed : (s.answer call).isOk = false) (batches : List Batch) :
    written call.operators batches = batches := by
  rw [answer, hstamp, hops] at hfailed
  rw [hops]
  cases hresult : (s.execute call.task (some u) [op]).2 with
  | ok out =>
    rw [hresult] at hfailed
    cases hfailed
  | error e => exact written_of_failed hresult batches

/-- What a read finds does not depend on which task it is. -/
theorem result_project_congr {s s' : Store} {u v : UnitId} (h : s.batches u = s'.batches v)
    (task task' : TaskId) (patterns : List String) (rest : List Operator) :
    (s.execute task (some u) (.project patterns :: rest)).2 =
      (s'.execute task' (some v) (.project patterns :: rest)).2 := by
  simp only [execute, executeOn, h]
  split <;> rfl

end Store

namespace Traffic

variable {τ τ' : Traffic} {u : UnitId}

/-! ## What has succeeded -/

/-- The deliveries of a unit that have succeeded. -/
def succeededOn (τ : Traffic) (u : UnitId) : List Delivery :=
  ((τ.executedOn u).filter fun p => p.2.isOk).map Prod.fst

theorem succeededOn_congr (h : τ'.executed = τ.executed) : τ'.succeededOn u = τ.succeededOn u := by
  rw [succeededOn, executedOn, h]
  rfl

theorem executed_congr (h : τ'.finished = τ.finished) : τ'.executed = τ.executed := by
  rw [executed, executed, h]

/-- What ends well is the last to have succeeded. -/
theorem succeededOn_append {d : Delivery} {r : TaskResult}
    (h : τ'.finished = τ.finished ++ [⟨d, .executed, r⟩]) :
    τ'.succeededOn u = τ.succeededOn u ++ if d.unit = u ∧ r.isOk = true then [d] else [] := by
  have hexecuted : τ'.executed = τ.executed ++ [(d, r)] := by
    rw [executed, h, List.filter_append, List.map_append]
    rfl
  rw [succeededOn, executedOn, hexecuted, List.filter_append, List.filter_append, List.map_append]
  congr 1
  by_cases hunit : d.unit = u <;> cases hok : r.isOk <;> simp [hunit, hok]

theorem mem_succeededOn {d : Delivery} (hd : d ∈ τ.succeededOn u) :
    d ∈ τ.deliveries ∧ d.unit = u := by
  obtain ⟨p, hp, rfl⟩ := List.mem_map.mp hd
  obtain ⟨hserved, hunit⟩ := executedOn_subset τ u (List.mem_of_mem_filter hp)
  exact ⟨mem_deliveries_of_served hserved, hunit⟩

theorem Orderly.mem_line (h : τ.Orderly) {d : Delivery} (hd : d ∈ τ.line u) :
    d ∈ τ.deliveries ∧ d.unit = u := by
  rw [line_eq_executedOn] at hd
  rcases List.mem_append.mp hd with hd | hd
  · obtain ⟨p, hp, rfl⟩ := List.mem_map.mp hd
    obtain ⟨hserved, hunit⟩ := executedOn_subset τ u hp
    exact ⟨mem_deliveries_of_served hserved, hunit⟩
  · have hpending := h.of_mem_pendingOf hd
    exact ⟨List.mem_append_left _ hpending.1, hpending.2⟩

/-- If nothing of a unit is left to do, its line is what drivers were called for. -/
theorem line_of_pendingOf (h : τ.pendingOf u = []) :
    (τ.servedOn u).map Prod.fst = (τ.executedOn u).map Prod.fst ∧
      τ.line u = (τ.executedOn u).map Prod.fst := by
  have hline := line_eq_executedOn τ u
  obtain ⟨_, hwaiting⟩ := List.append_eq_nil_iff.mp h
  rw [h, List.append_nil] at hline
  have hserved := hline
  rw [line, hwaiting, List.append_nil] at hserved
  exact ⟨hserved, hline⟩

end Traffic

namespace Cluster

variable {c c₁ c₂ : Cluster} {ids : List UnitId} {master v : UnitId} {events : List Event}

/-! ## Writes in a row -/

/-- The batches that deliveries leave, one after another, on a unit that starts empty. -/
def leftBy [PatternLibrary] (c : Cluster) (ds : List Delivery) : List Batch :=
  ds.foldl (fun bs d => written (c.operatorsOf d.task) bs) []

/-- The operators of those deliveries that write. -/
def writesOf (c : Cluster) (ds : List Delivery) : List (List Operator) :=
  (ds.filter fun d => c.writes d.task).map fun d => c.operatorsOf d.task

theorem writesOf_append (c : Cluster) (ds ds' : List Delivery) :
    c.writesOf (ds ++ ds') = c.writesOf ds ++ c.writesOf ds' := by
  rw [writesOf, List.filter_append, List.map_append]
  rfl

theorem writesOf_eq_nil {ds : List Delivery} (h : ∀ d ∈ ds, c.writes d.task ≠ true) :
    c.writesOf ds = [] := by
  rw [writesOf, List.filter_eq_nil_iff.mpr h, List.map_nil]

theorem writesOf_singleton {d : Delivery} (h : c.writes d.task = true) :
    c.writesOf [d] = [c.operatorsOf d.task] := by
  simp [writesOf, h]

/-- Only what writes leaves anything. -/
theorem leftBy_eq [PatternLibrary] (c : Cluster) (ds : List Delivery) :
    c.leftBy ds = (c.writesOf ds).foldl (fun bs ops => written ops bs) [] := by
  rw [writesOf, List.foldl_map]
  exact (foldl_written_filter (fun d : Delivery => c.operatorsOf d.task)
    (fun d _ hread batches => written_of_read hread batches) []).symm

/-! ## Echoes -/

/-- The other members have, in their lines, the writes that have succeeded on the master, in that
order. -/
def Echoes (c : Cluster) (ids : List UnitId) (master : UnitId) (τ : Traffic) : Prop :=
  ∀ v ∈ ids, v ≠ master → c.writesOf (τ.line v) = c.writesOf (τ.succeededOn master)

/-- If the same writes come to the end of each line and succeed on the master, the lines stay an
echo. -/
theorem Echoes.append {τ τ' : Traffic} {new : List Delivery} (succeeded : List Delivery)
    (h : c.Echoes ids master τ)
    (hline : ∀ v ∈ ids, τ'.line v = τ.line v ++ new.filter fun d => d.unit == v)
    (hsucceeded : τ'.succeededOn master = τ.succeededOn master ++ succeeded)
    (hsame : ∀ v ∈ ids, v ≠ master →
      c.writesOf (new.filter fun d => d.unit == v) = c.writesOf succeeded) :
    c.Echoes ids master τ' := by
  intro v hv hne
  rw [hline v hv, hsucceeded, writesOf_append, writesOf_append, h v hv hne, hsame v hv hne]

/-- A move other than the end of a delivery ends nothing that a driver was called for. -/
theorem executed_of_move? [PatternLibrary] {s : Step} (h : c₁.Coherent)
    (hs : ∀ id elapsed, s ≠ .complete id elapsed)
    (hstep : c₁.step? s = some c₂) : c₂.traffic.executed = c₁.traffic.executed := by
  cases s with
  | resolve u =>
    obtain ⟨l, _, _, _, rfl⟩ := serve_of_resolve? hstep
    rfl
  | giveUp u =>
    obtain ⟨l, _, _, _, rfl⟩ := resign_of_giveUp? hstep
    rfl
  | dispatch u =>
    obtain ⟨l, d, rest, _, _, _, _, hdispatch⟩ := dispatch_of_dispatch? hstep
    cases hdispatch with
    | notReady _ =>
      rw [traffic_reject]
      exact executed_refused (e := ⟨d, .notReady, _⟩) (by simp) rfl
    | overloaded _ _ _ =>
      rw [traffic_reject]
      exact executed_refused (e := ⟨d, .overloaded, _⟩) (by simp) rfl
    | submitted _ _ _ => rfl
  | start e =>
    obtain ⟨_, _, _, _, _, _, _, _, _, _, htraffic⟩ := answers_of_start? h hstep
    rw [htraffic]
    rfl
  | complete id elapsed => exact absurd rfl (hs id elapsed)
  | admitMemory => rw [traffic_admitMemory? hstep]
  | startMemory => rw [traffic_startMemory? hstep]
  | runMemory t elapsed => rw [traffic_runMemory? hstep]

/-- Each unit gets one copy. -/
theorem filter_copyDeliveries {us : List UnitId} (hnodup : us.Nodup) (hv : v ∈ us) (d t : Nat) :
    ∃ e ∈ copyDeliveries d t us, ((copyDeliveries d t us).filter fun d => d.unit == v) = [e] := by
  have hlength : ((copyDeliveries d t us).filter fun d => d.unit == v).length = 1 := by
    have hcount : ((copyDeliveries d t us).map Delivery.unit).count v = 1 := by
      rw [map_unit_copyDeliveries]
      exact List.count_eq_one_of_mem hnodup hv
    rw [List.count, List.countP_map] at hcount
    rw [← List.countP_eq_length_filter]
    exact hcount
  obtain ⟨e, he⟩ := List.length_eq_one_iff.mp hlength
  have hmem : e ∈ (copyDeliveries d t us).filter fun d => d.unit == v :=
    he ▸ List.mem_singleton_self e
  exact ⟨e, List.mem_of_mem_filter hmem, he⟩

/-- Copies of reads do not count, whoever gets them. -/
theorem CopiedFrom.writesOf_of_read {r : Run} {x : Task} {shape : StorageShape}
    (h : c.CopiedFrom c₁ c₂ r x shape) (hread : x.isWrite = false) {ds : List Delivery}
    (hds : ∀ d ∈ ds, d ∈ copyDeliveries c₁.accepted c₁.tasks.length
      (c₁.copiedTo x shape r.outcome)) : c.writesOf ds = [] := by
  refine writesOf_eq_nil ?_
  intro d hd
  rw [(h.of_mem (hds d hd)).2.1, hread]
  exact Bool.false_ne_true

section Moment

variable [PatternLibrary] {s : Setup} {e : Event} (hmoment : Moment s c c₁ e c₂)

include hmoment

/-- What comes in for a unit goes to the end of its line, if none of it is refused in the end. -/
theorem Moment.line {calls : Prop} {new : List Delivery}
    (hcourse : Course calls c₁.traffic new c₂.traffic) (hsingle : c.traffic.Single v)
    (hserved : ∀ e ∈ c.finished, e.delivery.unit = v → e.fate = .executed) :
    c₂.traffic.line v = c₁.traffic.line v ++ new.filter fun d => d.unit == v := by
  obtain ⟨_, hrest⟩ := hmoment.course
  exact hcourse.line (hrest.single_of hsingle) fun e he =>
    hserved e (hrest.finished_prefix.subset he)

/-- What is in a line is among the deliveries for ever. -/
theorem Moment.mem_deliveries_of_line {d : Delivery} (hd : d ∈ c₂.traffic.line v) :
    d ∈ c.traffic.deliveries ∧ d.unit = v :=
  (hmoment.coherent_after.sound.orderly.mem_line hd).imp_left fun hd => hmoment.subset hd

theorem Moment.subset_before : c₁.traffic.deliveries ⊆ c.traffic.deliveries := by
  obtain ⟨events, hrest⟩ := hmoment.rest
  have hrun : c₁.run? (e :: events) = some c := by
    rw [run?, hmoment.after]
    exact hrest
  exact (subperm_deliveries_of_run? hmoment.coherent.sound hrun).subset

section Copied

variable {r : Run} {x : Task} {shape : StorageShape} (hcopied : c.CopiedFrom c₁ c₂ r x shape)

include hcopied

/-- A write that succeeds on the master is copied to all other members. -/
theorem Sourced.copiedTo_eq (h : c.Sourced ids master c₁.traffic.deliveries)
    (hwritten : c.WrittenThrough ids events) (hmaster : master ∈ ids)
    (hknown : ∀ v ∈ ids, c₁.knows v = true) (hwrite : x.isWrite = true)
    (hunit : r.delivery.unit = master) (hok : r.outcome.result.isOk = true) :
    c₁.copiedTo x shape r.outcome = ids.filter fun u => u != master := by
  have hd := mem_deliveries_of_running hcopied.running
  have hwrites := hcopied.writes_eq.trans hwrite
  have hids := (hwritten.alone r.delivery (hmoment.subset_before hd) (hunit ▸ hmaster) hwrites).2
  -- A write for the group that is not broadcast would not be on the master.
  have hbroadcasts : x.broadcasts = true := by
    rw [← hcopied.isBroadcast_eq]
    by_contra hnot
    exact (h.copy r.delivery hd hwrites hids (Bool.eq_false_iff.mpr hnot) (hunit ▸ hmaster)).1 hunit
  have hgroup := Option.some.inj (hcopied.groupOf?_eq.symm.trans hids)
  rw [copiedTo, hbroadcasts, hok, (h.copied hcopied hwrite hgroup hbroadcasts
    hmoment.coherent.sound hmoment.stamped hmaster).2]
  exact List.filter_eq_self.mpr fun u hu => hknown u (List.mem_of_mem_filter hu)

/-- A copy that writes to a member is one of a write that has succeeded on the master. -/
theorem Sourced.ended_of_copy (h : c.Sourced ids master c₁.traffic.deliveries)
    (hwritten : c.WrittenThrough ids events) (hmaster : master ∈ ids) {d : Delivery}
    (hd : d ∈ copyDeliveries c₁.accepted c₁.tasks.length (c₁.copiedTo x shape r.outcome))
    (hunit : d.unit ∈ ids) (hwrite : x.isWrite = true) :
    r.delivery.unit = master ∧ r.outcome.result.isOk = true := by
  obtain ⟨_, hwrites, hgroup, _, hto⟩ := hcopied.of_mem hd
  obtain ⟨hbroadcasts, hok, _, hknows⟩ := copiedTo_of_mem hto
  have hdelivered : d ∈ c₂.traffic.deliveries := by
    simp [deliveries, hcopied.appended.mem_queued hd hknows]
  have hids := (hwritten.alone d (hmoment.subset hdelivered) hunit (hwrites.trans hwrite)).2
  have hsame := Option.some.inj (hgroup.symm.trans hids)
  exact ⟨(h.copied hcopied hwrite hsame hbroadcasts hmoment.coherent.sound hmoment.stamped
    hmaster).1, hok⟩

/-- When a delivery ends, another member gets a write exactly if one has succeeded on the master. -/
theorem Sourced.writesOf_copies (h : c.Sourced ids master c₁.traffic.deliveries)
    (hwritten : c.WrittenThrough ids events) (hmaster : master ∈ ids) (hnodup : ids.Nodup)
    (hknown : ∀ v ∈ ids, c₁.knows v = true) (hv : v ∈ ids) (hne : v ≠ master) :
    c.writesOf ((copyDeliveries c₁.accepted c₁.tasks.length
        (c₁.copiedTo x shape r.outcome)).filter fun d => d.unit == v) =
      c.writesOf (if r.delivery.unit = master ∧ r.outcome.result.isOk = true then [r.delivery]
        else []) := by
  cases hwrite : x.isWrite with
  | false =>
    rw [hcopied.writesOf_of_read hwrite fun d hd => List.mem_of_mem_filter hd]
    split
    · exact (writesOf_eq_nil (by simp [hcopied.writes_eq, hwrite])).symm
    · rfl
  | true =>
    by_cases hended : r.delivery.unit = master ∧ r.outcome.result.isOk = true
    · have hto := h.copiedTo_eq hmoment hcopied hwritten hmaster hknown hwrite hended.1 hended.2
      have hmem : v ∈ c₁.copiedTo x shape r.outcome :=
        hto ▸ List.mem_filter.mpr ⟨hv, bne_iff_ne.mpr hne⟩
      obtain ⟨d, hd, hfilter⟩ := filter_copyDeliveries (hto ▸ hnodup.filter _) hmem
        c₁.accepted c₁.tasks.length
      obtain ⟨hoperators, hwrites, _⟩ := hcopied.of_mem hd
      rw [if_pos hended, hfilter, writesOf_singleton (hwrites.trans hwrite),
        writesOf_singleton (hcopied.writes_eq.trans hwrite), hoperators, hcopied.operators_eq]
    · rw [if_neg hended]
      refine writesOf_eq_nil ?_
      intro d hd _
      obtain ⟨hmem, hunit⟩ := List.mem_filter.mp hd
      exact hended (h.ended_of_copy hmoment hcopied hwritten hmaster hmem
        (eq_of_beq hunit ▸ hv) hwrite)

end Copied

/-- Every event keeps the lines of the other members an echo of the master. -/
theorem Echoes.after? (h : c.Echoes ids master c₁.traffic) (he : e ∈ events)
    (hwritten : c.WrittenThrough ids events)
    (hsourced : c.Sourced ids master c₁.traffic.deliveries)
    (hids : ∃ others, ids = master :: others) (hnodup : ids.Nodup)
    (hrouter : ∀ u, s.router ≠ .fixed u) (hknown : ∀ v ∈ ids, c₁.knows v = true)
    (hsingle : ∀ v ∈ ids, c.traffic.Single v)
    (hserved : ∀ e ∈ c.finished, e.delivery.unit ∈ ids → e.fate = .executed) :
    c.Echoes ids master c₂.traffic := by
  have hc := hmoment.coherent
  have hline : ∀ {new : List Delivery}, Course True c₁.traffic new c₂.traffic → ∀ v ∈ ids,
      c₂.traffic.line v = c₁.traffic.line v ++ new.filter fun d => d.unit == v :=
    fun hcourse v hv => hmoment.line hcourse (hsingle v hv) fun e he hunit =>
      hserved e he (hunit ▸ hv)
  cases e with
  | asked r =>
    obtain ⟨new, hcourse, hsends⟩ : ∃ new, Course True c₁.traffic new (c₁.handle r).1.traffic ∧
        ∀ d ∈ new, c₁.Sends r d := course_handle hc.sound.orderly fun _ => trivial
    obtain ⟨_, haccepts, _⟩ := accepts_handle hc.sound.orderly r
    obtain rfl : (c₁.handle r).1 = c₂ := Option.some.inj hmoment.after
    refine h.append [] (hline hcourse) ?_ ?_
    · rw [succeededOn_congr (executed_congr haccepts.finished), List.append_nil]
    · -- A request brings in writes for the master alone.
      intro v hv hne
      refine writesOf_eq_nil ?_
      intro d hd hwrites
      have hlast : d ∈ (c₁.handle r).1.traffic.line v := by
        rw [hline hcourse v hv]
        exact List.mem_append_right _ hd
      obtain ⟨hmem, hunit⟩ := hmoment.mem_deliveries_of_line hlast
      have hgroup := (hwritten.alone d hmem (hunit ▸ hv) hwrites).2
      rcases hwritten.sent hids hmoment.later (fun u => hmoment.router ▸ hrouter u) he hmem
        (hsends d (List.mem_of_mem_filter hd)) hwrites hgroup with ⟨_, hat⟩ | ⟨_, hothers⟩
      · exact hne (hunit.symm.trans hat)
      · exact hothers d hmem rfl (hunit ▸ hv)
  | moved step =>
    by_cases hstep : ∃ id elapsed, step = .complete id elapsed
    · obtain ⟨id, elapsed, rfl⟩ := hstep
      obtain ⟨r, x, shape, hcompletion, hcopied⟩ := hmoment.copiedFrom
      have hcourse : Course True c₁.traffic _ c₂.traffic :=
        course_completion hc.sound hcompletion hcopied.task hcopied.storage
      have hmaster : master ∈ ids := by
        obtain ⟨others, rfl⟩ := hids
        exact List.mem_cons_self
      refine h.append _ (hline hcourse) (succeededOn_append (finished_of_completion hcompletion)) ?_
      intro v hv hne
      exact hsourced.writesOf_copies hmoment hcopied hwritten hmaster hnodup hknown hv hne
    · have hother : ∀ id elapsed, step ≠ .complete id elapsed :=
        fun id elapsed hsame => hstep ⟨id, elapsed, hsame⟩
      have hcourse : Course True c₁.traffic [] c₂.traffic :=
        course_move? hc.sound.orderly hother (fun _ => trivial) hmoment.after
      refine h.append [] (hline hcourse) ?_ fun _ _ _ => rfl
      rw [succeededOn_congr (executed_of_move? hc hother hmoment.after), List.append_nil]

end Moment

/-- As long as nothing is written, there is nothing to echo. -/
theorem echoes_of_fresh (h : c₁.traffic.Orderly) (hmaster : master ∈ ids)
    (hfresh : ∀ d ∈ c₁.traffic.deliveries, d.unit ∈ ids → c.writes d.task = false) :
    c.Echoes ids master c₁.traffic := by
  have hnone : ∀ v ∈ ids, ∀ ds, (∀ d ∈ ds, d ∈ c₁.traffic.deliveries ∧ d.unit = v) →
      c.writesOf ds = [] := by
    intro v hv ds hds
    refine writesOf_eq_nil ?_
    intro d hd
    obtain ⟨hmem, hunit⟩ := hds d hd
    simp [hfresh d hmem (hunit ▸ hv)]
  intro v hv _
  rw [hnone v hv _ fun d hd => h.mem_line hd, hnone master hmaster _ fun d hd => mem_succeededOn hd]

/-! ## What a member holds -/

/-- The store of a unit, if its engine is one. -/
def storeOf? (c : Cluster) (u : UnitId) : Option Store :=
  match ((c.traffic.engineOf? u).bind c.traffic.engine?).map EngineSite.driver with
  | some (.store st) => some st
  | _ => none

theorem exists_engine_of_storeOf? {u : UnitId} {st : Store} (h : c.storeOf? u = some st) :
    ∃ e site, c.traffic.engineOf? u = some e ∧ c.traffic.engine? e = some site ∧
      site.driver = .store st := by
  unfold storeOf? at h
  split at h
  · rename_i st' hdriver
    obtain rfl := Option.some.inj h
    obtain ⟨site, hsite, hstore⟩ := Option.map_eq_some_iff.mp hdriver
    obtain ⟨e, hu, hs⟩ := Option.bind_eq_some_iff.mp hsite
    exact ⟨e, site, hu, hs, hstore⟩
  · cases h

section

variable [PatternLibrary]

section Member

variable {u : UnitId} {e : EngineId} {site : EngineSite} {st : Store}
  (hmirrors : c.traffic.Mirrors c.callOf e) (hu : c.traffic.engineOf? u = some e)
  (hs : c.traffic.engine? e = some site) (hstore : site.driver = .store st)
  (hstamps : ∀ p ∈ c.traffic.served, c.writes p.1.task = true →
    (c.stamp? p.1.task = some u ↔ p.1.unit = u))

include hmirrors hu hs hstore hstamps

/-- A member holds what the deliveries to it have left. -/
theorem batches_eq_leftBy : st.batches u = c.leftBy ((c.traffic.servedOn u).map Prod.fst) := by
  have hreplay := batches_replay ordered_empty u ((c.traffic.servedAt e).map fun p => c.callOf p.1)
  rw [hmirrors site st hs hstore, List.filter_map, List.map_map, List.foldl_map, batches_empty]
    at hreplay
  have hreads : ∀ p ∈ c.traffic.servedAt e, c.writes p.1.task = false → ∀ batches,
      written (c.operatorsOf p.1.task) batches = batches :=
    fun _ _ hread batches => written_of_read hread batches
  -- Reads do not count, and of the writes exactly those to the unit are stamped with it.
  have hsame : ((c.traffic.servedAt e).filter fun p => (c.callOf p.1).isOn u).filter
        (fun p => c.writes p.1.task) =
      ((c.traffic.servedAt e).filter fun p => p.1.unit == u).filter
        fun p => c.writes p.1.task := by
    rw [List.filter_filter, List.filter_filter]
    refine List.filter_congr ?_
    intro p hp
    cases hwrites : c.writes p.1.task with
    | false => rfl
    | true =>
      have hiff := hstamps p (List.mem_of_mem_filter hp) hwrites
      rw [StoreCall.isOn, callOf, Bool.true_and, Bool.true_and, Bool.eq_iff_iff, beq_iff_eq,
        beq_iff_eq]
      exact hiff
  calc st.batches u
      = ((c.traffic.servedAt e).filter fun p => (c.callOf p.1).isOn u).foldl
          (fun bs p => written (c.operatorsOf p.1.task) bs) [] := hreplay
    _ = (((c.traffic.servedAt e).filter fun p => (c.callOf p.1).isOn u).filter
          fun p => c.writes p.1.task).foldl (fun bs p => written (c.operatorsOf p.1.task) bs) [] :=
        (foldl_written_filter (fun p : Delivery × TaskResult => c.operatorsOf p.1.task)
          (fun p hp => hreads p (List.mem_of_mem_filter hp)) []).symm
    _ = ((c.traffic.servedAt e).filter fun p => p.1.unit == u).foldl
          (fun bs p => written (c.operatorsOf p.1.task) bs) [] := by
        rw [hsame]
        exact foldl_written_filter (fun p : Delivery × TaskResult => c.operatorsOf p.1.task)
          (fun p hp => hreads p (List.mem_of_mem_filter hp)) []
    _ = c.leftBy ((c.traffic.servedOn u).map Prod.fst) := by
        rw [servedAt_filter hu, leftBy, List.foldl_map]

/-- What has failed leaves nothing, if it is a single operator. -/
theorem leftBy_succeededOn
    (halone : ∀ p ∈ c.traffic.executedOn u, c.writes p.1.task = true →
      (c.operatorsOf p.1.task).length = 1) :
    c.leftBy (c.traffic.succeededOn u) = c.leftBy ((c.traffic.executedOn u).map Prod.fst) := by
  rw [leftBy, leftBy, succeededOn, List.foldl_map, List.foldl_map]
  refine foldl_written_filter (fun p : Delivery × TaskResult => c.operatorsOf p.1.task) ?_ []
  intro p hp hfailed batches
  cases hwrites : c.writes p.1.task with
  | false => exact written_of_read hwrites batches
  | true =>
    obtain ⟨hserved, hunit⟩ := executedOn_subset c.traffic u hp
    have hat : p ∈ c.traffic.servedAt e :=
      List.mem_filter.mpr ⟨hserved, by simp [hunit, hu]⟩
    have hcalled : (c.callOf p.1, p.2) ∈
        (Store.empty.replay ((c.traffic.servedAt e).map fun p => c.callOf p.1)).2 := by
      rw [hmirrors site st hs hstore]
      exact List.mem_map_of_mem (f := fun p => (c.callOf p.1, p.2)) hat
    obtain ⟨s', hanswer⟩ := exists_answer_of_mem_replay hcalled
    have hstamp : (c.callOf p.1).stamp = some u := (hstamps p hserved hwrites).mpr hunit
    obtain ⟨op, hops⟩ := List.length_eq_one_iff.mp (halone p hp hwrites)
    exact written_of_answer hstamp hops (hanswer ▸ hfailed) batches

/-- Once nothing of a member is left to do, it holds what those writes have left that have succeeded
on the master. -/
theorem batches_of_echoes (hechoes : c.Echoes ids master c.traffic) (hmember : u ∈ ids)
    (halone : ∀ p ∈ c.traffic.executedOn u, c.writes p.1.task = true →
      (c.operatorsOf p.1.task).length = 1)
    (hpending : c.traffic.pendingOf u = []) :
    st.batches u = c.leftBy (c.traffic.succeededOn master) := by
  obtain ⟨hserved, hline⟩ := line_of_pendingOf hpending
  have hleft := batches_eq_leftBy hmirrors hu hs hstore hstamps
  rw [hserved] at hleft
  by_cases hown : u = master
  · subst hown
    -- The master has executed more than what has succeeded, but that has left nothing.
    rw [hleft, leftBy_succeededOn hmirrors hu hs hstore hstamps halone]
  · rw [hleft, ← hline, leftBy_eq, leftBy_eq, hechoes u hmember hown]

end Member

/-! ## Groups -/

/-- A unit that is known stays known. -/
theorem knows_of_run? (h : c₁.Coherent) (hrun : c₁.run? events = some c)
    (hknown : c₁.knows v = true) : c.knows v = true := by
  obtain ⟨l, hl⟩ := Option.isSome_iff_exists.mp hknown
  obtain ⟨_, hcourse⟩ := course_of_run? h hrun
  have hengine := hcourse.engineOf?_some (Traffic.engineOf?_of_unit? hl)
  obtain ⟨m, hm, _⟩ := Option.map_eq_some_iff.mp hengine
  exact Option.isSome_of_eq_some hm

/-- In a settled state in which nothing waits for it, a member has nothing left to do. -/
theorem pendingOf_of_settled (h : c.Sound) (hsettled : c.IsSettled)
    (hheld : c.traffic.HeldOutside) {e : EngineId} {site : EngineSite} {st : Store}
    (hv : c.traffic.engineOf? v = some e) (hs : c.traffic.engine? e = some site)
    (hstore : site.driver = .store st)
    (hempty : ∀ d ∈ c.traffic.queued ++ c.traffic.pooled, d.unit ≠ v) :
    c.traffic.pendingOf v = [] := by
  refine List.eq_nil_iff_forall_not_mem.mpr ?_
  intro d hd
  obtain ⟨hplace, hunit⟩ := h.orderly.of_mem_pendingOf hd
  rcases List.mem_append.mp hplace with hwaiting | hunderway
  · exact hempty d hwaiting hunit
  · obtain ⟨r, hr, rfl⟩ := List.mem_map.mp hunderway
    have hat := h.orderly.runningAt r hr
    rw [hunit, hv] at hat
    exact hheld r hr (isHeld_of_settled h hsettled hr) site st (Option.some.inj hat ▸ hs) hstore

/-- From the time when all members are known, the lines are an echo of the master, if nothing has
been written until then and nothing is refused. -/
theorem echoes_of_run? {s : Setup} {before : List Event} {c₀ : Cluster}
    (hbefore : (build s).run? before = some c₀) (hrun : c₀.run? events = some c)
    (hrouter : ∀ u, s.router ≠ .fixed u) (hids : ∃ others, ids = master :: others)
    (hnodup : ids.Nodup) (hknown : ∀ v ∈ ids, c₀.knows v = true)
    (hfresh : ∀ d ∈ c₀.traffic.deliveries, d.unit ∈ ids → c₀.writes d.task = false)
    (hwritten : c.WrittenThrough ids (before ++ events))
    (hsingle : ∀ v ∈ ids, c.traffic.Single v)
    (hserved : ∀ e ∈ c.finished, e.delivery.unit ∈ ids → e.fate = .executed) :
    c.Sourced ids master c.traffic.deliveries ∧ c.Echoes ids master c.traffic := by
  have hc₀ : c₀.Coherent := (coherent_build s).run? hbefore
  refine within_induction (P := fun c₁ => c.Sourced ids master c₁.traffic.deliveries ∧
    c.Echoes ids master c₁.traffic) hrun ?_ ⟨?_, ?_⟩
  · intro e he c₁ c₂ hwithin h
    have hmoment := moment_of_within hbefore hwithin
    have hevent : e ∈ before ++ events := List.mem_append_right _ he
    obtain ⟨_, hfirst⟩ := hwithin.before
    exact ⟨h.1.after? hmoment hevent hwritten hids hrouter,
      h.2.after? hmoment hevent hwritten h.1 hids hnodup hrouter
        (fun v hv => knows_of_run? hc₀ hfirst (hknown v hv)) hsingle hserved⟩
  · exact sourced_of_run? hbefore hrun hwritten (List.subset_append_left _ _) hids hrouter
  · have hmaster : master ∈ ids := by
      obtain ⟨others, rfl⟩ := hids
      exact List.mem_cons_self
    refine echoes_of_fresh hc₀.sound.orderly hmaster ?_
    intro d hd hunit
    obtain ⟨x, hx, _⟩ := hc₀.storage d hd
    rw [writes, operatorsOf_of_later (later_of_run? hc₀ hrun) hx]
    exact hfresh d hd hunit

/-- Take a group made by attaching replicas to a master, on a node on which committed writes go to
the masters, and a history in which drivers are called by workers only.  Let all members have become
known before anything was written to one of them, on engines that are stores with one worker.  If
every write to a member is a single operator for the group that was committed and broadcast, and no
delivery to a member was refused, then in every settled state in which nothing waits for a member:

* every member holds what those writes have left that have succeeded on the master, in the order in
  which they ended there;
* so all members hold the same batches in the same order, and a task that reads finds the same on
  each of them. -/
theorem replicas_converge (s : Setup) {g : StorageUnit} {before : List Event} {c₀ : Cluster}
    (hgroup : g.IsGroup) (hrouter : ∀ u, s.router ≠ .fixed u)
    (hbefore : (build s).run? before = some c₀) (hrun : c₀.run? events = some c)
    (hdirect : ∀ e t, .asked (.callDriver e t) ∉ before ++ events)
    (hknown : ∀ v ∈ g.groupIds, c₀.knows v = true)
    (hfresh : ∀ d ∈ c₀.traffic.deliveries, d.unit ∈ g.groupIds → c₀.writes d.task = false)
    (hmemory : ∀ v ∈ g.groupIds, ∃ e site st, c.traffic.engineOf? v = some e ∧
      c.engine? e = some site ∧ site.workers = 1 ∧ site.driver = .store st)
    (hwritten : c.WrittenThrough g.groupIds (before ++ events))
    (hserved : ∀ e ∈ c.finished, e.delivery.unit ∈ g.groupIds → e.fate = .executed)
    (hsettled : c.IsSettled)
    (hempty : ∀ d ∈ c.traffic.queued ++ c.traffic.pooled, d.unit ∉ g.groupIds) :
    (∀ v ∈ g.groupIds, ∃ st, c.storeOf? v = some st ∧
      st.batches v = c.leftBy (c.traffic.succeededOn g.masterId)) ∧
    (∀ v ∈ g.groupIds, ∀ w ∈ g.groupIds, ∀ st st', c.storeOf? v = some st →
      c.storeOf? w = some st' → st.batches v = st'.batches w ∧
        ∀ t t' patterns rest, (st.execute t (some v) (.project patterns :: rest)).2 =
          (st'.execute t' (some w) (.project patterns :: rest)).2) := by
  have hall : (build s).run? (before ++ events) = some c := by
    rw [run?_append, hbefore]
    exact hrun
  have hc : c.Coherent := (coherent_build s).run? hall
  have hsingle : ∀ v ∈ g.groupIds, c.traffic.Single v := by
    intro v hv e hu site hs
    obtain ⟨e', site', st, hu', hs', hworkers, _⟩ := hmemory v hv
    obtain rfl := Option.some.inj (hu.symm.trans hu')
    obtain rfl := Option.some.inj (hs.symm.trans hs')
    exact hworkers
  -- Every write that ends on the master is echoed on the other members, in the same order.
  obtain ⟨hsourced, hechoes⟩ := echoes_of_run? hbefore hrun hrouter ⟨_, rfl⟩ hgroup.nodup hknown
    hfresh hwritten hsingle hserved
  have hholds : ∀ v ∈ g.groupIds, ∃ st, c.storeOf? v = some st ∧
      st.batches v = c.leftBy (c.traffic.succeededOn g.masterId) := by
    intro v hv
    obtain ⟨e, site, st, hu, hs, _, hstore⟩ := hmemory v hv
    have hstored : c.storeOf? v = some st := by
      rw [storeOf?, hu, Option.bind_some, show c.traffic.engine? e = some site from hs,
        Option.map_some, hstore]
    -- In a settled state nothing is under way for the member, so its store has all of the echoes.
    have hpending := pendingOf_of_settled hc.sound hsettled (heldOutside_of_run? hall hdirect) hu hs
      hstore fun d hd hunit => hempty d hd (hunit ▸ hv)
    refine ⟨st, hstored, batches_of_echoes (mirrors_of_run? hall hdirect (hsingle v hv e hu)) hu hs
      hstore ?_ hechoes hv ?_ hpending⟩
    · intro p hp hwrites
      exact hsourced.stamp?_eq_iff hwritten (stamped_of_run? hall) (mem_deliveries_of_served hp)
        (notMem_queued_of_served hc.sound hp) hwrites hv
    · intro p hp hwrites
      obtain ⟨hmem, hunit⟩ := executedOn_subset c.traffic _ hp
      exact (hwritten.alone p.1 (mem_deliveries_of_served hmem) (hunit ▸ hv) hwrites).1
  refine ⟨hholds, ?_⟩
  intro v hv w hw st st' hst hst'
  obtain ⟨_, hown, hbatches⟩ := hholds v hv
  obtain ⟨_, hown', hbatches'⟩ := hholds w hw
  obtain rfl := Option.some.inj (hst.symm.trans hown)
  obtain rfl := Option.some.inj (hst'.symm.trans hown')
  have hsame := hbatches.trans hbatches'.symm
  exact ⟨hsame, result_project_congr hsame⟩

end

/-- A master and one replica. -/
def pair : StorageUnit :=
  { StorageUnit.newMaster "unit" 1 with replicas := [StorageUnit.newReplica "other" 1 "unit"] }

/-- Both members become known. -/
def pairKnown : List Event :=
  [.asked (.notifyUnit none (some (StorageUnit.newMaster "unit" 1))),
    .asked (.notifyUnit none (some (StorageUnit.newReplica "other" 1 "unit")))]

/-- Two writes are committed; the batch of the first has no columns, so that fails, and the second
is copied. -/
def pairEvents : List Event :=
  [.asked (.newStorage [.insert default] { sampleFragment with master := pair } true true none),
    .asked (.newStorage [.insert sampleBatch] { sampleFragment with master := pair } true true
      none),
    .asked (.commitAll [0, 1]), .moved (.resolve "unit"), .moved (.resolve "other"),
    .moved (.dispatch "unit"), .moved (.dispatch "unit"), .moved (.start 1),
    .moved (.complete 0 Duration.zero), .moved (.start 1), .moved (.complete 1 Duration.zero),
    .moved (.dispatch "other"), .moved (.start 1), .moved (.complete 2 Duration.zero)]

theorem replicas_converge_sample : ∃ c st st',
    (build memorySetup).run? (pairKnown ++ pairEvents) = some c ∧
    c.storeOf? "unit" = some st ∧ c.storeOf? "other" = some st' ∧
    st.batches "unit" = st'.batches "other" ∧ (st.batches "unit").length = 1 := by
  obtain ⟨c₀, hbefore, hknown, hfresh, c, hrun, site, hs, hunit, hother, hworkers, hstore, hleft⟩ :
      ∃ c₀ ∈ (build memorySetup).run? pairKnown, (∀ v ∈ pair.groupIds, c₀.knows v = true) ∧
        (∀ d ∈ c₀.traffic.deliveries, d.unit ∈ pair.groupIds → c₀.writes d.task = false) ∧
        ∃ c ∈ c₀.run? pairEvents, ∃ site ∈ c.engine? 1,
          c.traffic.engineOf? "unit" = some 1 ∧ c.traffic.engineOf? "other" = some 1 ∧
          site.workers = 1 ∧ (c.storeOf? "unit").isSome = true ∧
          (c.leftBy (c.traffic.succeededOn "unit")).length = 1 := by
    decide
  have hall : (build memorySetup).run? (pairKnown ++ pairEvents) = some c := by
    rw [run?_append, hbefore]
    exact hrun
  have hwrites : ∀ c ∈ (build memorySetup).run? (pairKnown ++ pairEvents),
      ∀ d ∈ c.traffic.deliveries, d.unit ∈ pair.groupIds → c.writes d.task = true →
        ((c.operatorsOf d.task).length = 1 ∧ c.groupOf? d.task = some pair.groupIds) ∧
        ∀ e ∈ pairKnown ++ pairEvents, d.task ∈ e.commits → c.isBroadcast d.task = true := by
    decide
  have hover : ∀ c ∈ (build memorySetup).run? (pairKnown ++ pairEvents),
      (∀ e ∈ c.finished, e.delivery.unit ∈ pair.groupIds → e.fate = .executed) ∧
        c.isStill = true ∧ ∀ d ∈ c.traffic.queued ++ c.traffic.pooled, d.unit ∉ pair.groupIds := by
    decide
  have hmemory : ∀ v ∈ pair.groupIds, ∃ e site st, c.traffic.engineOf? v = some e ∧
      c.engine? e = some site ∧ site.workers = 1 ∧ site.driver = .store st := by
    have hmember : ∀ v ∈ pair.groupIds, c.traffic.engineOf? v = some 1 := by
      intro v hv
      rcases List.mem_cons.mp hv with rfl | hv
      · exact hunit
      · exact List.mem_singleton.mp hv ▸ hother
    obtain ⟨st, hst⟩ := Option.isSome_iff_exists.mp hstore
    obtain ⟨e, site', hu, hs', hdriver⟩ := exists_engine_of_storeOf? hst
    obtain rfl := Option.some.inj (hunit.symm.trans hu)
    obtain rfl : site = site' := Option.some.inj (hs.symm.trans hs')
    exact fun v hv => ⟨1, site, st, hmember v hv, hs, hworkers, hdriver⟩
  have hgroup : pair.IsGroup := .attach (.master "unit" 1)
    (show (StorageUnit.newMaster "unit" 1).addReplica (StorageUnit.newReplica "other" 1 "unit") =
      .ok pair from rfl)
  have hrouter : ∀ u, memorySetup.router ≠ .fixed u := by
    intro u hfixed
    cases hfixed
  have hconverge := replicas_converge memorySetup hgroup hrouter hbefore hrun
    (by simp [pairKnown, pairEvents]) hknown hfresh hmemory
    ⟨fun d hd hu hw => (hwrites c hall d hd hu hw).1,
      fun d hd hu hw => (hwrites c hall d hd hu hw).2,
      fun d _ hevent => by simp [pairKnown, pairEvents] at hevent⟩
    (hover c hall).1 ((isSettled_iff_isStill c).mpr (hover c hall).2.1) (hover c hall).2.2
  obtain ⟨st, hst, hbatches⟩ := hconverge.1 "unit" (by decide)
  obtain ⟨st', hst', _⟩ := hconverge.1 "other" (by decide)
  have hsame := (hconverge.2 "unit" (by decide) "other" (by decide) st st' hst hst').1
  exact ⟨c, st, st', hall, hst, hst', hsame, hbatches ▸ hleft⟩

end Cluster
end SeriesExec
