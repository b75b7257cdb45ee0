import SeriesExec.Proofs.EventTraffic

/-!
# Unit order — the deliveries of one unit, in the order in which they came

If the engine of a unit has one worker, the deliveries of the unit stay in the order in which they
came: those that drivers have been called for stand first, then those that wait for the worker, then
those in the queue of the unit.  This file defines:

* `Traffic.served` — the deliveries that drivers have been called for, with their results;
* `Traffic.line` — the deliveries of a unit that no loop has refused, in order;
* `Traffic.Single` — the engine of a unit has one worker;
* `Traffic.Ascending` — the numbers in a line ascend;
* `Traffic.executedOn` and `Traffic.pendingOf` — the part of a line that is over, and the rest.

Main statements: a small change puts what comes in at the end of the line, and takes nothing out of
it but what is refused (`Shift.line`, `Course.line`), so a line ascends after every history
(`ascending_of_run?`), and what came before a delivery that is over is over
(`Ascending.mem_past_of_lt`).
-/

namespace SeriesExec
namespace Traffic

variable {τ τ' : Traffic} {new : List Delivery} {calls : Prop} {u : UnitId}

/-- The deliveries that are over after a driver was called, with their results. -/
def executed (τ : Traffic) : List (Delivery × TaskResult) :=
  (τ.finished.filter fun e => e.fate == .executed).map fun e => (e.delivery, e.result)

/-- The deliveries that drivers have been called for, with their results; those that workers are
still busy with stand last. -/
def served (τ : Traffic) : List (Delivery × TaskResult) :=
  τ.executed ++ τ.running.map fun r => (r.delivery, r.outcome.result)

/-- Those of them that are of one unit. -/
def servedOn (τ : Traffic) (u : UnitId) : List (Delivery × TaskResult) :=
  τ.served.filter fun p => p.1.unit == u

/-- The deliveries of a unit that wait for a worker of its engine. -/
def pooledOf (τ : Traffic) (u : UnitId) : List Delivery :=
  match (τ.engineOf? u).bind τ.engine? with
  | none => []
  | some s => s.waiting.items.filter fun d => d.unit == u

/-- The deliveries in the queue of a unit. -/
def queueOf (τ : Traffic) (u : UnitId) : List Delivery :=
  match τ.unit? u with
  | none => []
  | some l => l.queue.items

/-- The deliveries of a unit that no loop has refused, those that have come furthest first. -/
def line (τ : Traffic) (u : UnitId) : List Delivery :=
  (τ.servedOn u).map Prod.fst ++ (τ.pooledOf u ++ τ.queueOf u)

/-- The engine, once it is ready, has one worker. -/
def OneWorker (τ : Traffic) (e : EngineId) : Prop :=
  ∀ s, τ.engine? e = some s → s.workers = 1

/-- The engine of the unit, once it is ready, has one worker. -/
def Single (τ : Traffic) (u : UnitId) : Prop :=
  ∀ e, τ.engineOf? u = some e → τ.OneWorker e

/-- Engines do not change their workers, so what has one worker has always had one. -/
theorem Course.oneWorker_of {e : EngineId} (h : Course calls τ new τ') (hone : τ'.OneWorker e) :
    τ.OneWorker e := by
  intro s hs
  obtain ⟨s', hs', hsame⟩ := h.engine?_some hs
  rw [← hsame.workers]
  exact hone s' hs'

theorem Course.single_of (h : Course calls τ new τ') (hsingle : τ'.Single u) : τ.Single u :=
  fun e hu => h.oneWorker_of (hsingle e (h.engineOf?_some hu))

/-! ## The places of a line -/

theorem pooledOf_eq {e : EngineId} {s : EngineSite} (hu : τ.engineOf? u = some e)
    (hs : τ.engine? e = some s) :
    τ.pooledOf u = s.waiting.items.filter fun d => d.unit == u := by
  rw [pooledOf, hu, Option.bind_some, hs]

theorem pooledOf_of_not_ready {e : EngineId} (hu : τ.engineOf? u = some e)
    (hs : τ.engine? e = none) : τ.pooledOf u = [] := by
  rw [pooledOf, hu, Option.bind_some, hs]

theorem pooledOf_of_unknown (hu : τ.engineOf? u = none) : τ.pooledOf u = [] := by
  rw [pooledOf, hu, Option.bind_none]

theorem pooledOf_congr (hunit : τ'.engineOf? u = τ.engineOf? u) (hengine : τ'.engine? = τ.engine?) :
    τ'.pooledOf u = τ.pooledOf u := by
  rw [pooledOf, pooledOf, hunit, hengine]

theorem queueOf_eq {l : UnitLoop} (hl : τ.unit? u = some l) : τ.queueOf u = l.queue.items := by
  rw [queueOf, hl]

theorem queueOf_congr (h : τ'.unit? u = τ.unit? u) : τ'.queueOf u = τ.queueOf u := by
  rw [queueOf, queueOf, h]

/-- Changing one unit changes its own queue alone. -/
theorem queueOf_mapUnit (w : UnitId) {f : UnitLoop → UnitLoop} (hid : ∀ l, (f l).id = l.id)
    {l : UnitLoop} (hl : τ.unit? w = some l) :
    (τ.mapUnit w f).queueOf u = if u = w then (f l).queue.items else τ.queueOf u := by
  split
  · rename_i hu
    subst hu
    refine queueOf_eq ?_
    rw [unit?_mapUnit τ u hid, if_pos rfl, hl, Option.map_some]
  · rename_i hu
    refine queueOf_congr ?_
    rw [unit?_mapUnit τ w hid, if_neg hu]

/-- A unit with another queue is on the same engine. -/
theorem engineOf?_setQueue (w : UnitId) (g : UnitLoop → Queue Delivery) :
    (τ.mapUnit w fun l => { l with queue := g l }).engineOf? u = τ.engineOf? u :=
  engineOf?_mapUnit τ w (f := fun l => { l with queue := g l }) (fun _ => rfl) (fun _ => rfl) u

theorem pooledOf_setQueue (w : UnitId) (g : UnitLoop → Queue Delivery) :
    (τ.mapUnit w fun l => { l with queue := g l }).pooledOf u = τ.pooledOf u :=
  pooledOf_congr (engineOf?_setQueue w g) rfl

theorem queueOf_setQueue (w : UnitId) (g : UnitLoop → Queue Delivery) {l : UnitLoop}
    (hl : τ.unit? w = some l) : (τ.mapUnit w fun l => { l with queue := g l }).queueOf u =
      if u = w then (g l).items else τ.queueOf u :=
  queueOf_mapUnit w (f := fun l => { l with queue := g l }) (fun _ => rfl) hl

/-- Putting an engine in anew changes what waits at it for its own units alone. -/
theorem pooledOf_putEngine (s : EngineSite) :
    (τ.putEngine s).pooledOf u =
      if τ.engineOf? u = some s.id then s.waiting.items.filter fun d => d.unit == u
      else τ.pooledOf u := by
  have hunit : (τ.putEngine s).engineOf? u = τ.engineOf? u := rfl
  split
  · rename_i hu
    exact pooledOf_eq (hunit.trans hu) ((engine?_putEngine τ s s.id).trans (if_pos rfl))
  · rename_i hu
    rw [pooledOf, pooledOf, hunit]
    cases he : τ.engineOf? u with
    | none => rfl
    | some e =>
      have hne : e ≠ s.id := fun hid => hu (hid ▸ he)
      rw [Option.bind_some, Option.bind_some, engine?_putEngine, if_neg hne]

/-- A driver that has been called for a delivery is not called again by whatever comes after. -/
theorem servedOn_congr (h : τ'.served = τ.served) : τ'.servedOn u = τ.servedOn u := by
  rw [servedOn, servedOn, h]

theorem served_of_running {running : List Run}
    (h : running.map Run.core = τ.running.map Run.core) :
    ({ τ with running := running } : Traffic).served = τ.served := by
  have hmap : ∀ rs : List Run, (rs.map fun r => (r.delivery, r.outcome.result)) =
      (rs.map Run.core).map fun p => (p.1, p.2.2.result) := by
    intro rs
    rw [List.map_map]
    rfl
  rw [served, served, hmap, hmap, h]
  rfl

theorem executed_refused {e : Ending} (he : e.fate ≠ .executed)
    (h : τ'.finished = τ.finished ++ [e]) : τ'.executed = τ.executed := by
  have hfate : (e.fate == .executed) = false := beq_eq_false_iff_ne.mpr he
  rw [executed, executed, h, List.filter_append, List.filter_cons_of_neg (by simp [hfate]),
    List.filter_nil, List.append_nil]

theorem served_refused {e : Ending} (he : e.fate ≠ .executed)
    (hfinished : τ'.finished = τ.finished ++ [e]) (hrunning : τ'.running = τ.running) :
    τ'.served = τ.served := by
  rw [served, served, executed_refused he hfinished, hrunning]

theorem served_start (r : Run) (hfinished : τ'.finished = τ.finished)
    (hrunning : τ'.running = τ.running ++ [r]) :
    τ'.served = τ.served ++ [(r.delivery, r.outcome.result)] := by
  rw [served, executed, hfinished, hrunning, List.map_append, ← List.append_assoc]
  rfl

/-! ## One worker -/

/-- A single worker is busy with one delivery at most. -/
theorem Orderly.running_of_single (h : τ.Orderly) {r : Run} (hr : r ∈ τ.running) {s : EngineSite}
    (hs : τ.engine? r.engine = some s) (hworkers : s.workers = 1) (keep : Delivery → Bool)
    (hkeep : ∀ q ∈ τ.running, keep q.delivery = true → q.engine = r.engine)
    (hkept : keep r.delivery = true) : (τ.running.filter fun q => keep q.delivery) = [r] := by
  have hlength : (τ.running.filter fun q => keep q.delivery).length ≤ 1 := by
    rw [← List.countP_eq_length_filter]
    refine Nat.le_trans (List.countP_mono_left ?_)
      (hworkers ▸ h.busyLe (r.engine, s) (KeyedList.mem_of_find? hs))
    intro q hq hown
    exact beq_iff_eq.mpr (hkeep q hq hown)
  have hmem : r ∈ τ.running.filter fun q => keep q.delivery := List.mem_filter.mpr ⟨hr, hkept⟩
  obtain ⟨q, hq⟩ := List.length_eq_one_iff.mp
    (Nat.le_antisymm hlength (List.length_pos_of_mem hmem))
  rw [hq, List.mem_singleton] at hmem
  rw [hq, hmem]

/-- When a worker ends a delivery that no other was under way with, all stay where they were. -/
theorem served_finish {r : Run} (halone : ∀ q ∈ τ.running, q.delivery.id = r.delivery.id → q = r)
    (keep : Delivery → Bool)
    (honly : keep r.delivery = true → (τ.running.filter fun q => keep q.delivery) = [r]) :
    (({ τ with
      running := τ.running.filter fun q => q.delivery.id != r.delivery.id
      finished := τ.finished ++ [⟨r.delivery, .executed, r.outcome.result⟩] } :
        Traffic).served.filter fun p => keep p.1) = τ.served.filter fun p => keep p.1 := by
  let told : Run → Delivery × TaskResult := fun q => (q.delivery, q.outcome.result)
  have hmap : ∀ rs : List Run, ((rs.map told).filter fun p => keep p.1) =
      (rs.filter fun q => keep q.delivery).map told := fun rs => List.filter_map
  simp only [served, executed, List.filter_append, List.map_append]
  rw [List.filter_cons_of_pos rfl, List.filter_nil, List.append_assoc]
  congr 1
  change ([told r].filter fun p => keep p.1) ++ ((List.map told _).filter _) =
    (τ.running.map told).filter _
  rw [hmap, hmap]
  cases hkept : keep r.delivery with
  | true =>
    -- The delivery was the only one with a worker.
    have hnone : ((τ.running.filter fun q => q.delivery.id != r.delivery.id).filter
        fun q => keep q.delivery) = [] := by
      rw [List.filter_comm, honly hkept]
      simp
    rw [hnone, honly hkept]
    simp [told, hkept]
  | false =>
    have hothers : ((τ.running.filter fun q => q.delivery.id != r.delivery.id).filter
        fun q => keep q.delivery) = τ.running.filter fun q => keep q.delivery := by
      rw [List.filter_filter]
      refine List.filter_congr ?_
      intro q hq
      cases hown : keep q.delivery with
      | false => rfl
      | true =>
        have hne : q.delivery.id ≠ r.delivery.id := by
          intro hid
          rw [halone q hq hid, hkept] at hown
          cases hown
        simp [hne]
    rw [hothers]
    simp [told, hkept]

theorem servedOn_finish (h : τ.Orderly) {r : Run} (hr : r ∈ τ.running)
    (halone : ∀ q ∈ τ.running, q.delivery.id = r.delivery.id → q = r) (hsingle : τ.Single u) :
    ({ τ with
      running := τ.running.filter fun q => q.delivery.id != r.delivery.id
      finished := τ.finished ++ [⟨r.delivery, .executed, r.outcome.result⟩] } :
        Traffic).servedOn u = τ.servedOn u := by
  refine served_finish halone (fun d => d.unit == u) ?_
  intro hown
  obtain ⟨s, hs⟩ := h.runningEngine r hr
  have hfound := KeyedList.find?_of_mem h.enginesSorted hs
  have hat := h.runningAt r hr
  rw [eq_of_beq hown] at hat
  refine h.running_of_single hr hfound (hsingle r.engine hat s hfound) (fun d => d.unit == u) ?_
    hown
  -- Whatever runs for the unit runs on the engine of the unit.
  intro q hq hunit
  have hother := h.runningAt q hq
  rw [eq_of_beq hunit, hat] at hother
  exact (Option.some.inj hother).symm

/-! ## Lines -/

theorem line_eq {pooled queue : List Delivery} (hpooled : τ.pooledOf u = pooled)
    (hqueue : τ.queueOf u = queue) :
    τ.line u = (τ.servedOn u).map Prod.fst ++ (pooled ++ queue) := by
  rw [line, hpooled, hqueue]

theorem line_congr (hserved : τ'.servedOn u = τ.servedOn u)
    (hpooled : τ'.pooledOf u = τ.pooledOf u) (hqueue : τ'.queueOf u = τ.queueOf u) :
    τ'.line u = τ.line u := by
  rw [line, line, hserved, hpooled, hqueue]

theorem line_sublist (hserved : τ'.servedOn u = τ.servedOn u)
    (hpooled : τ'.pooledOf u = τ.pooledOf u) (hqueue : (τ'.queueOf u).Sublist (τ.queueOf u)) :
    (τ'.line u).Sublist (τ.line u) := by
  rw [line, line, hserved, hpooled]
  exact (hqueue.append_left _).append_left _

theorem engineOf?_of_unit? {l : UnitLoop} (hl : τ.unit? u = some l) :
    τ.engineOf? u = some l.engine := by
  rw [engineOf?_eq, hl, Option.map_some]

/-- What a loop takes is its own. -/
theorem Orderly.unit_of_queue (h : τ.Orderly) {l : UnitLoop} {d : Delivery} {rest : List Delivery}
    (hl : τ.unit? l.id = some l) (hitems : l.queue.items = d :: rest) : d.unit = l.id :=
  h.queuedAt l (mem_units_of_unit? hl) d (hitems ▸ List.mem_cons_self)

theorem line_enqueue (d : Delivery) (hknown : (τ.unit? d.unit).isSome) :
    ({ τ.mapUnit d.unit (fun l => { l with queue := l.queue.push d }) with
      accepted := τ.accepted + 1 } : Traffic).line u =
        τ.line u ++ [d].filter fun d => d.unit == u := by
  obtain ⟨l, hl⟩ := Option.isSome_iff_exists.mp hknown
  have hqueue : (τ.mapUnit d.unit fun l => { l with queue := l.queue.push d }).queueOf u =
      τ.queueOf u ++ [d].filter fun d => d.unit == u := by
    rw [queueOf_setQueue d.unit (fun l => l.queue.push d) hl]
    split
    · rename_i hu
      rw [hu, queueOf_eq hl]
      simp [Queue.push]
    · rename_i hu
      simp [Ne.symm hu]
  have hpooled : (τ.mapUnit d.unit fun l => { l with queue := l.queue.push d }).pooledOf u =
      τ.pooledOf u := pooledOf_setQueue d.unit fun l => l.queue.push d
  refine (line_eq hpooled hqueue).trans ?_
  rw [line, ← List.append_assoc, ← List.append_assoc, ← List.append_assoc]
  rfl

/-- A unit that becomes known has an empty line still. -/
theorem line_learn (h : τ.Orderly) {l : UnitLoop} (hnew : τ.unit? l.id = none)
    (hqueue : l.queue.items = []) :
    ({ τ with units := τ.units ++ [l] } : Traffic).line u = τ.line u := by
  have hunit : ({ τ with units := τ.units ++ [l] } : Traffic).unit? u =
      (τ.unit? u).or (if l.id = u then some l else none) := by
    rw [unit?, List.find?_append, List.find?_singleton]
    simp only [beq_iff_eq]
    rfl
  by_cases hnone : τ.unit? u = none ∧ l.id = u
  · rcases hnone with ⟨_, rfl⟩
    rw [hnew, Option.none_or, if_pos rfl] at hunit
    -- What waits at an engine is of units that were known before.
    have hbefore : τ.engineOf? l.id = none := by rw [engineOf?_eq, hnew, Option.map_none]
    have hpooled : ({ τ with units := τ.units ++ [l] } : Traffic).pooledOf l.id = [] := by
      cases hs : τ.engine? l.engine with
      | none => exact pooledOf_of_not_ready (engineOf?_of_unit? hunit) hs
      | some s =>
        refine (pooledOf_eq (engineOf?_of_unit? hunit) hs).trans (List.filter_eq_nil_iff.mpr ?_)
        intro d hd heq
        have hat := h.pooledAt _ (KeyedList.mem_of_find? hs) d hd
        rw [eq_of_beq heq, hbefore] at hat
        cases hat
    refine line_congr rfl (hpooled.trans (pooledOf_of_unknown hbefore).symm) ?_
    rw [queueOf_eq hunit, hqueue, queueOf, hnew]
  · have hsame : ({ τ with units := τ.units ++ [l] } : Traffic).unit? u = τ.unit? u := by
      rw [hunit]
      cases hu : τ.unit? u with
      | some m => rfl
      | none => rw [Option.none_or, if_neg fun hid => hnone ⟨hu, hid⟩]
    exact line_congr rfl (pooledOf_congr (congrArg (Option.map UnitLoop.engine) hsame) rfl)
      (queueOf_congr hsame)

theorem line_offer {s : EngineSite} (hnew : τ.engine? s.id = none)
    (hwaiting : s.waiting.items = []) : (τ.putEngine s).line u = τ.line u := by
  refine line_congr rfl ?_ rfl
  rw [pooledOf_putEngine]
  split
  · rename_i hu
    rw [hwaiting, List.filter_nil, pooledOf_of_not_ready hu hnew]
  · rfl

/-- A delivery goes from the front of the queue to the end of what waits for the worker, so the line
stays the same. -/
theorem line_submit (h : τ.Orderly) {l : UnitLoop} {d : Delivery} {rest : List Delivery}
    {s : EngineSite} (hl : τ.unit? l.id = some l) (hitems : l.queue.items = d :: rest)
    (hs : τ.engine? l.engine = some s) :
    ((τ.mapUnit l.id fun l => { l with queue := ⟨rest⟩ }).putEngine
      { s with waiting := s.waiting.push d }).line u = τ.line u := by
  have hid : s.id = l.engine := h.id_of_engine? hs
  have hunit : d.unit = l.id := h.unit_of_queue hl hitems
  have hengine : (τ.mapUnit l.id fun l => { l with queue := ⟨rest⟩ }).engineOf? u =
      τ.engineOf? u := engineOf?_setQueue l.id fun _ => ⟨rest⟩
  -- What the pool gains at its end the queue has lost at its front; other units see neither.
  have hpooled : ((τ.mapUnit l.id fun l => { l with queue := ⟨rest⟩ }).putEngine
      { s with waiting := s.waiting.push d }).pooledOf u =
      τ.pooledOf u ++ [d].filter fun d => d.unit == u := by
    rw [pooledOf_putEngine, hengine]
    split
    · rename_i hu
      rw [pooledOf_eq hu (hid ▸ hs)]
      exact List.filter_append _ _
    · rename_i hu
      have hne : d.unit ≠ u := by
        rintro rfl
        rw [hunit, engineOf?_of_unit? hl, hid] at hu
        exact hu rfl
      rw [List.filter_cons_of_neg (by simpa using hne), List.filter_nil, List.append_nil]
      exact pooledOf_setQueue l.id fun _ => ⟨rest⟩
  have hqueue := queueOf_setQueue (u := u) l.id (fun _ => ⟨rest⟩) hl
  have hbefore : τ.queueOf u = ([d].filter fun d => d.unit == u) ++
      if u = l.id then rest else τ.queueOf u := by
    split
    · rename_i hu
      rw [hu, queueOf_eq hl, hitems]
      simp [hunit]
    · rename_i hu
      have hne : d.unit ≠ u := fun hother => hu (hother.symm.trans hunit)
      rw [List.filter_cons_of_neg (by simpa using hne), List.filter_nil, List.nil_append]
  refine (line_eq hpooled hqueue).trans ?_
  rw [List.append_assoc, ← hbefore]
  rfl

/-- A delivery goes from the front of what waits for the worker to the end of what drivers have been
called for, so the line stays the same. -/
theorem line_start (h : τ.Orderly) {s : EngineSite} {d : Delivery} {rest : List Delivery}
    {driver : Driver} {outcome : Outcome} {isHeld : Bool} (hs : τ.engine? s.id = some s)
    (hitems : s.waiting.items = d :: rest) :
    ({ τ.putEngine { s with waiting := ⟨rest⟩, driver := driver } with
      running := τ.running ++ [⟨d, s.id, outcome, isHeld⟩] } : Traffic).line u = τ.line u := by
  have hat : τ.engineOf? d.unit = some s.id :=
    h.pooledAt _ (KeyedList.mem_of_find? hs) d (hitems ▸ List.mem_cons_self)
  have hserved : ({ τ.putEngine { s with waiting := ⟨rest⟩, driver := driver } with
      running := τ.running ++ [⟨d, s.id, outcome, isHeld⟩] } : Traffic).servedOn u =
      τ.servedOn u ++ [(d, outcome.result)].filter fun p => p.1.unit == u := by
    rw [servedOn, servedOn, ← List.filter_append]
    exact congrArg (List.filter _) (served_start ⟨d, s.id, outcome, isHeld⟩ rfl rfl)
  have hbefore : τ.pooledOf u = ([d].filter fun d => d.unit == u) ++
      (τ.putEngine { s with waiting := ⟨rest⟩, driver := driver }).pooledOf u := by
    rw [pooledOf_putEngine]
    split
    · rename_i hu
      rw [pooledOf_eq hu hs, hitems]
      exact List.filter_append [d] rest
    · rename_i hu
      have hne : d.unit ≠ u := fun hother => hu (hother ▸ hat)
      rw [List.filter_cons_of_neg (by simpa using hne), List.filter_nil, List.nil_append]
  have hmoved : ([(d, outcome.result)].filter fun p => p.1.unit == u).map Prod.fst =
      [d].filter fun d => d.unit == u := by
    by_cases hu : d.unit = u <;> simp [hu]
  rw [line, line, hserved, List.map_append, hmoved, hbefore, List.append_assoc, List.append_assoc]
  rfl

theorem line_refuse (h : τ.Orderly) {l : UnitLoop} {d : Delivery} {rest : List Delivery}
    (hl : τ.unit? l.id = some l) (hitems : l.queue.items = d :: rest) {fate : Fate}
    (hfate : fate ≠ .executed) (err : Error) :
    (d.unit ≠ u → ({ τ.mapUnit l.id (fun l => { l with queue := ⟨rest⟩ }) with
      finished := τ.finished ++ [⟨d, fate, .error err⟩] } : Traffic).line u = τ.line u) ∧
    (({ τ.mapUnit l.id (fun l => { l with queue := ⟨rest⟩ }) with
      finished := τ.finished ++ [⟨d, fate, .error err⟩] } : Traffic).line u).Sublist
        (τ.line u) := by
  have hunit : d.unit = l.id := h.unit_of_queue hl hitems
  have hserved : ({ τ.mapUnit l.id (fun l => { l with queue := ⟨rest⟩ }) with
      finished := τ.finished ++ [⟨d, fate, .error err⟩] } : Traffic).served = τ.served :=
    served_refused hfate rfl rfl
  have hpooled : (τ.mapUnit l.id fun l => { l with queue := ⟨rest⟩ }).pooledOf u =
      τ.pooledOf u := pooledOf_setQueue l.id fun _ => ⟨rest⟩
  have hqueue := queueOf_setQueue (u := u) l.id (fun _ => ⟨rest⟩) hl
  constructor
  · intro hne
    rw [if_neg fun hu => hne (hunit.trans hu.symm)] at hqueue
    exact line_congr (servedOn_congr hserved) hpooled hqueue
  · refine line_sublist (servedOn_congr hserved) hpooled ?_
    refine hqueue ▸ ?_
    split
    · rename_i hu
      rw [hu, queueOf_eq hl, hitems]
      exact List.sublist_cons_self d rest
    · exact List.Sublist.refl _

/-- A small change puts what comes in at the end of the line; at most, it takes out of the line a
delivery that is refused. -/
theorem Shift.line (h : τ.Orderly) (hshift : Shift calls τ new τ') (hsingle : τ.Single u) :
    τ'.line u = τ.line u ++ (new.filter fun d => d.unit == u) ∨
      (τ'.line u).Sublist (τ.line u) ∧
        ∃ e ∈ τ'.finished, e.delivery.unit = u ∧ e.fate ≠ .executed := by
  -- Most changes bring nothing in and leave every place of the line alone.
  have hsame : τ'.line u = τ.line u →
      τ'.line u = τ.line u ++ (([] : List Delivery).filter fun d => d.unit == u) := by
    intro hline
    rw [hline, List.filter_nil, List.append_nil]
  cases hshift with
  | enqueue d hknown _ => exact .inl (line_enqueue d hknown)
  | learn l hnew hqueue _ => exact .inl (hsame (line_learn h hnew hqueue))
  | offer s hnew hwaiting _ => exact .inl (hsame (line_offer hnew hwaiting))
  | permit running hcore _ =>
    exact .inl (hsame (line_congr (servedOn_congr (served_of_running hcore)) rfl rfl))
  | close => exact .inl (hsame rfl)
  | turn l phase hl _ =>
    have hengine := engineOf?_mapUnit τ l.id (f := fun l => { l with phase := phase })
      (fun _ => rfl) (fun _ => rfl) u
    refine .inl (hsame (line_congr rfl (pooledOf_congr hengine rfl) ?_))
    rw [queueOf_mapUnit l.id (f := fun l => { l with phase := phase }) (fun _ => rfl) hl]
    split
    · rename_i hu
      rw [hu, queueOf_eq hl]
    · rfl
  | refuse l d rest fate err hl hitems hfate =>
    have hrefused : fate ≠ .executed := by
      rcases hfate with ⟨rfl, _⟩ | ⟨rfl, _⟩ <;> simp
    obtain ⟨hother, hsub⟩ := line_refuse (u := u) h hl hitems hrefused err
    by_cases hu : d.unit = u
    · exact .inr ⟨hsub, _, List.mem_append_right _ (List.mem_singleton_self _), hu, hrefused⟩
    · exact .inl (hsame (hother hu))
  | submit l d rest s hl hitems hs _ => exact .inl (hsame (line_submit h hl hitems hs))
  | start _ s d rest driver outcome isHeld hs hitems =>
    exact .inl (hsame (line_start h hs hitems))
  | drive _ s driver hs =>
    refine .inl (hsame (line_congr rfl ?_ rfl))
    rw [pooledOf_putEngine]
    split
    · rename_i hu
      rw [pooledOf_eq hu hs]
    · rfl
  | finish r hr halone =>
    exact .inl (hsame (line_congr (servedOn_finish h hr halone hsingle) rfl rfl))

/-- Along a course on which nothing of the unit is refused, whatever comes in for it goes to the end
of its line, in the order in which it comes in. -/
theorem Course.line (h : Course calls τ new τ') (hsingle : τ'.Single u)
    (hserved : ∀ e ∈ τ'.finished, e.delivery.unit = u → e.fate = .executed) :
    τ'.line u = τ.line u ++ new.filter fun d => d.unit == u := by
  induction h with
  | nil τ => rw [List.filter_nil, List.append_nil]
  | cons horderly hshift hrest ih =>
    have hbefore := (Course.cons horderly hshift hrest).single_of hsingle
    rw [ih hsingle hserved, List.filter_append, ← List.append_assoc]
    rcases hshift.line horderly hbefore with hline | ⟨_, e, he, hunit, hfate⟩
    · rw [hline]
    · exact absurd (hserved e (hrest.finished_prefix.subset he) hunit) hfate

/-! ## Numbers -/

/-- The deliveries in the line of the unit have ascending numbers, all of which have been given
away. -/
structure Ascending (τ : Traffic) (u : UnitId) : Prop where
  sorted : (τ.line u).Pairwise fun d d' => d.id < d'.id
  given : ∀ d ∈ τ.line u, d.id < τ.accepted

/-- What comes in has the next number. -/
theorem Shift.incoming (h : Shift calls τ new τ') :
    (new = [] ∧ τ'.accepted = τ.accepted) ∨
      ∃ d, new = [d] ∧ d.id = τ.accepted ∧ τ'.accepted = τ.accepted + 1 := by
  cases h with
  | enqueue d _ hid => exact .inr ⟨d, rfl, hid, rfl⟩
  | _ => exact .inl ⟨rfl, rfl⟩

theorem Ascending.shift (horderly : τ.Orderly) (hshift : Shift calls τ new τ')
    (hsingle : τ.Single u) (h : τ.Ascending u) : τ'.Ascending u := by
  have hle : τ.accepted ≤ τ'.accepted := by
    rcases hshift.incoming with ⟨_, haccepted⟩ | ⟨_, _, _, haccepted⟩ <;> omega
  rcases hshift.line horderly hsingle with hline | ⟨hsub, _⟩
  · -- What is new in the line has come in just now.
    have hnew : ∀ d ∈ new, d.id = τ.accepted ∧ d.id < τ'.accepted := by
      intro d hd
      rcases hshift.incoming with ⟨rfl, _⟩ | ⟨d', rfl, hid, haccepted⟩
      · cases hd
      · rw [List.mem_singleton.mp hd]
        omega
    have hone : new.Pairwise fun d d' => d.id < d'.id := by
      rcases hshift.incoming with ⟨rfl, _⟩ | ⟨d', rfl, _⟩
      · exact .nil
      · exact List.pairwise_singleton _ _
    constructor
    · rw [hline]
      refine List.pairwise_append.mpr ⟨h.sorted, hone.filter _, ?_⟩
      intro d hd d' hd'
      rw [(hnew d' (List.mem_of_mem_filter hd')).1]
      exact h.given d hd
    · intro d hd
      rw [hline] at hd
      rcases List.mem_append.mp hd with hd | hd
      · exact Nat.lt_of_lt_of_le (h.given d hd) hle
      · exact (hnew d (List.mem_of_mem_filter hd)).2
  · exact ⟨h.sorted.sublist hsub, fun d hd => Nat.lt_of_lt_of_le (h.given d (hsub.subset hd)) hle⟩

/-! ## What is not over -/

/-- The deliveries of a unit that are not over, those that have come furthest first. -/
def pendingOf (τ : Traffic) (u : UnitId) : List Delivery :=
  (τ.running.filter fun r => r.delivery.unit == u).map Run.delivery ++
    (τ.pooledOf u ++ τ.queueOf u)

/-- The deliveries of a unit that are over after a driver was called. -/
def executedOn (τ : Traffic) (u : UnitId) : List (Delivery × TaskResult) :=
  τ.executed.filter fun p => p.1.unit == u

theorem servedOn_eq (τ : Traffic) (u : UnitId) :
    τ.servedOn u = τ.executedOn u ++
      (τ.running.filter fun r => r.delivery.unit == u).map fun r =>
        (r.delivery, r.outcome.result) := by
  rw [servedOn, served, List.filter_append, List.filter_map]
  rfl

theorem line_eq_executedOn (τ : Traffic) (u : UnitId) :
    τ.line u = (τ.executedOn u).map Prod.fst ++ τ.pendingOf u := by
  rw [line, servedOn_eq, List.map_append, List.map_map, List.append_assoc]
  rfl

theorem Orderly.mem_pendingOf (h : τ.Orderly) {d : Delivery} (hd : d ∈ τ.deliveries)
    (hunit : d.unit = u) : d ∈ τ.past ∨ d ∈ τ.pendingOf u := by
  have hown : (d.unit == u) = true := beq_iff_eq.mpr hunit
  rcases List.mem_append.mp hd with hd | hd
  · right
    rcases List.mem_append.mp hd with hd | hd
    · refine List.mem_append_right _ ?_
      rcases List.mem_append.mp hd with hd | hd
      · obtain ⟨l, hl, hmem⟩ := List.mem_flatMap.mp hd
        have hid : l.id = u := (h.queuedAt l hl d hmem).symm.trans hunit
        have hfound : τ.unit? l.id = some l := find?_of_nodup_map h.unitsNodup hl
        rw [queueOf_eq (hid ▸ hfound)]
        exact List.mem_append_right _ hmem
      · obtain ⟨e, he, hmem⟩ := List.mem_flatMap.mp hd
        have hat := h.pooledAt e he d hmem
        rw [hunit] at hat
        rw [pooledOf_eq hat (KeyedList.find?_of_mem h.enginesSorted he)]
        exact List.mem_append_left _ (List.mem_filter.mpr ⟨hmem, hown⟩)
    · obtain ⟨r, hr, rfl⟩ := List.mem_map.mp hd
      exact List.mem_append_left _ (List.mem_map_of_mem (List.mem_filter.mpr ⟨hr, hown⟩))
  · exact .inl hd

theorem Orderly.of_mem_pendingOf (h : τ.Orderly) {d : Delivery} (hd : d ∈ τ.pendingOf u) :
    d ∈ τ.queued ++ τ.pooled ++ τ.underway ∧ d.unit = u := by
  simp only [pendingOf, List.mem_append] at hd ⊢
  rcases hd with hd | hd | hd
  · obtain ⟨r, hr, rfl⟩ := List.mem_map.mp hd
    obtain ⟨hmem, hunit⟩ := List.mem_filter.mp hr
    exact ⟨.inr (List.mem_map_of_mem hmem), eq_of_beq hunit⟩
  · unfold pooledOf at hd
    split at hd
    · cases hd
    · rename_i s hs
      obtain ⟨e, _, hfound⟩ := Option.bind_eq_some_iff.mp hs
      obtain ⟨hmem, hunit⟩ := List.mem_filter.mp hd
      exact ⟨.inl (.inr (mem_pooled hfound hmem)), eq_of_beq hunit⟩
  · unfold queueOf at hd
    split at hd
    · cases hd
    · rename_i l hl
      have hmem := mem_units_of_unit? hl
      exact ⟨.inl (.inl (List.mem_flatMap.mpr ⟨l, hmem, hd⟩)),
        (h.queuedAt l hmem d hd).trans (id_of_unit? hl)⟩

/-- What came to a unit before a delivery that a driver has been called for and that is over, is
over itself. -/
theorem Ascending.mem_past_of_lt (h : τ.Ascending u) (horderly : τ.Orderly) {d : Delivery}
    (hd : d ∈ τ.deliveries) (hunit : d.unit = u) {p : Delivery × TaskResult}
    (hp : p ∈ τ.executedOn u) (hlt : d.id < p.1.id) : d ∈ τ.past := by
  rcases horderly.mem_pendingOf hd hunit with hpast | hpending
  · exact hpast
  · have hsorted := h.sorted
    rw [line_eq_executedOn] at hsorted
    have hafter := (List.pairwise_append.mp hsorted).2.2 _ (List.mem_map_of_mem hp) _ hpending
    omega

end Traffic

namespace Cluster

variable {c : Cluster} {u : UnitId}

/-- The engine of a unit has one worker, so the numbers in the line of the unit ascend. -/
theorem ascending_of_run? [PatternLibrary] {s : Setup} {events : List Event}
    (hrun : (build s).run? events = some c) (hsingle : c.traffic.Single u) :
    c.traffic.Ascending u := by
  refine traffic_induction (P := fun τ => τ.Single u → τ.Ascending u) ?_ ?_ hrun hsingle
  · intro τ τ' new horderly hshift h hsingle
    have hbefore := (Traffic.Course.single horderly hshift).single_of hsingle
    exact (h hbefore).shift horderly hshift hbefore
  · intro _
    exact ⟨List.Pairwise.nil, fun d hd => nomatch hd⟩

end Cluster
end SeriesExec
