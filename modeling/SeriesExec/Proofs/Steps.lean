import SeriesExec.Proofs.Traffic

/-!
# Steps — what a move of a loop or a worker can do

Every move is a function with a number of conditions in it.  This file says once what each of them
can do, conditions included, so that no later proof has to take the functions apart:

* `Cluster.Step.isLoop` — the move is that of a loop of a unit;
* `Cluster.serve` and `Cluster.resign` — a loop has found its engine, or looks for it no longer;
* `Cluster.Dispatch` — a loop refuses a delivery, because its engine is not ready or because too
  many are waiting, or hands it to the workers of its engine;
* `Cluster.Start` — a worker takes the first delivery that waits for it and calls the driver;
* `Cluster.Completion` — a worker brings a delivery to its end;
* `Cluster.runStaged` — a memory worker has run its task.

Main statements: `serve_of_resolve?`, `resign_of_giveUp?`, `dispatch_of_dispatch?`,
`start_of_start?`, `completion_of_complete?`, `admitted_of_admitMemory?`, `started_of_startMemory?`,
`chain_of_runMemory?`.
-/

namespace SeriesExec
namespace Cluster

variable {c c' : Cluster}

/-! ## Loops -/

/-- Whether the move is that of a loop of a unit. -/
def Step.isLoop : Step → Bool
  | .resolve _ | .giveUp _ | .dispatch _ => true
  | _ => false

/-- Loops move only while they are on. -/
theorem isClosed_of_isLoop [PatternLibrary] {s : Step} (hs : s.isLoop = true)
    (h : c.step? s = some c') : c.isClosed = false := by
  cases hclosed : c.isClosed with
  | false => rfl
  | true =>
    -- With the loops off, none of the three moves is possible.
    cases s with
    | resolve u =>
      rw [step?, resolve?, hclosed] at h
      split at h <;> simp at h
    | giveUp u =>
      rw [step?, giveUp?, hclosed] at h
      split at h <;> simp at h
    | dispatch u =>
      rw [step?, dispatch?, hclosed] at h
      split at h <;> simp at h
    | _ => cases hs

/-- The cluster after a loop has taken the first delivery of its queue and has stamped its task. -/
def takeFirst (c : Cluster) (l : UnitLoop) (d : Delivery) (rest : List Delivery) : Cluster :=
  (c.modifyUnit l.id fun l => { l with queue := ⟨rest⟩ }).modifyTask d.task
    fun t => t.stampUnit l.id l.isDummy

/-- The cluster after a loop has noticed that its engine is ready. -/
def serve (c : Cluster) (l : UnitLoop) : Cluster :=
  c.modifyUnit l.id fun l => { l with phase := .serving }

/-- The cluster after a loop has stopped looking for its engine. -/
def resign (c : Cluster) (l : UnitLoop) : Cluster :=
  c.modifyUnit l.id fun l => { l with phase := .resigned }

theorem serve_of_resolve? {u : UnitId} (h : c.resolve? u = some c') :
    ∃ l ∈ c.units, l.id = u ∧ (l.phase = .seeking ∧ (c.engine? l.engine).isSome) ∧
      c' = c.serve l := by
  unfold resolve? at h
  split at h
  · cases h
  · rename_i l hl
    have hid : l.id = u := id_of_unit? hl
    subst hid
    split at h
    · rename_i hready
      simp only [Bool.and_eq_true, beq_iff_eq] at hready
      exact ⟨l, List.mem_of_find?_eq_some hl, rfl, ⟨hready.1.2, hready.2⟩,
        (Option.some.inj h).symm⟩
    · cases h

theorem resign_of_giveUp? {u : UnitId} (h : c.giveUp? u = some c') :
    ∃ l ∈ c.units, l.id = u ∧ (l.phase = .seeking ∧ c.config.pollTimeout.isSome) ∧
      c' = c.resign l := by
  unfold giveUp? at h
  split at h
  · cases h
  · rename_i l hl
    have hid : l.id = u := id_of_unit? hl
    subst hid
    split at h
    · rename_i hlate
      simp only [Bool.and_eq_true, beq_iff_eq] at hlate
      exact ⟨l, List.mem_of_find?_eq_some hl, rfl, ⟨hlate.1.1.2, hlate.2⟩,
        (Option.some.inj h).symm⟩
    · cases h

/-- What becomes of the delivery `d` that the loop `l` has taken. -/
inductive Dispatch (c : Cluster) (l : UnitLoop) (d : Delivery) (rest : List Delivery) :
    Cluster → Prop where
  | notReady (hengine : c.engine? l.engine = none) :
      Dispatch c l d rest
        ((c.takeFirst l d rest).reject d .notReady (.engineNotReady l.engine))
  | overloaded (s : EngineSite) (hengine : c.engine? l.engine = some s)
      (hfull : c.config.maxWaiting < s.waiting.size) :
      Dispatch c l d rest
        (((c.takeFirst l d rest).serve l).reject d .overloaded
          (.tooManyTasks l.engine l.id s.waiting.size c.config.maxWaiting))
  | submitted (s : EngineSite) (hengine : c.engine? l.engine = some s)
      (hroom : s.waiting.size ≤ c.config.maxWaiting) :
      Dispatch c l d rest (((c.takeFirst l d rest).serve l).submit s d)

theorem dispatch_of_dispatch? {u : UnitId} (h : c.dispatch? u = some c') :
    ∃ l d rest, c.unit? u = some l ∧ c.isClosed = false ∧ l.phase ≠ .seeking ∧
      l.queue.items = d :: rest ∧ c.Dispatch l d rest c' := by
  unfold dispatch? at h
  split at h
  · cases h
  · rename_i l hl
    have hid : l.id = u := id_of_unit? hl
    subst hid
    split at h
    · cases h
    · rename_i hopen
      simp only [Bool.or_eq_true, beq_iff_eq, not_or, Bool.not_eq_true] at hopen
      split at h
      · cases h
      · rename_i d rest hpop
        injection h with h
        refine ⟨l, d, rest.items, hl, hopen.1, hopen.2, Queue.toList_of_pop? hpop, ?_⟩
        -- Taking a delivery changes no engine and no setting, so the choice is made as in `c`.
        have htaken : (c.modifyUnit l.id fun l => { l with queue := rest }).modifyTask d.task
            (fun t => t.stampUnit l.id l.isDummy) = c.takeFirst l d rest.items := rfl
        have hengine : (c.takeFirst l d rest.items).engine? l.engine = c.engine? l.engine := rfl
        have hconfig : (c.takeFirst l d rest.items).config = c.config := rfl
        rw [htaken] at h
        unfold decideDelivery at h
        rw [hengine, hconfig] at h
        split at h
        · rename_i hnone
          -- What is left are the three ways of `decideDelivery`.
          exact h ▸ .notReady hnone
        · rename_i s hs
          dsimp only at h
          split at h
          · rename_i hfull
            exact h ▸ .overloaded s hs hfull
          · rename_i hroom
            exact h ▸ .submitted s hs (Nat.le_of_not_lt hroom)

/-! ## Workers of engines -/

/-- A worker of the engine `s` takes the delivery `d`, and the driver is called for it.  The call
changes the driver, or the script of the outside drivers of that type, and nothing else. -/
structure Start (c : Cluster) (s : EngineSite) (d : Delivery) (rest : List Delivery)
    (c' : Cluster) : Prop where
  engine : c.engine? s.id = some s
  free : c.busy s.id < s.workers
  waiting : s.waiting.items = d :: rest
  backdrop : c'.backdrop = c.backdrop
  traffic : ∃ driver outcome isHeld, c'.traffic =
    { c.traffic.putEngine { s with waiting := ⟨rest⟩, driver := driver } with
      running := c.running ++ [⟨d, s.id, outcome, isHeld⟩] }

theorem traffic_call [PatternLibrary] (c : Cluster) (s : EngineSite) (d : Delivery) (task : Task) :
    ∃ driver outcome isHeld, ((c.putEngine s).call s d task).traffic =
      { c.traffic.putEngine { s with driver := driver } with
        running := c.running ++ [⟨d, s.id, outcome, isHeld⟩] } := by
  unfold call
  dsimp only
  split
  · rename_i store _
    -- A store answers at once, and the worker holds nothing.
    let r := store.execute d.task (task.storage?.bind StorageShape.stamp) task.operators
    refine ⟨.store r.1, .answer r.2, false, ?_⟩
    simp only [traffic, Traffic.putEngine, putEngine, KeyedList.insert_insert]
    rfl
  -- An outside driver follows its script, which is not part of the traffic.
  · exact ⟨s.driver, _, _, rfl⟩

theorem backdrop_start? [PatternLibrary] {e : EngineId} (h : c.start? e = some c') :
    c'.backdrop = c.backdrop := by
  unfold start? at h
  split at h
  · cases h
  · split at h
    · split at h
      · cases h
      · rcases Option.some.inj h with rfl
        rw [backdrop_call, backdrop_putEngine]
    · cases h

theorem start_of_start? [PatternLibrary] (horderly : c.traffic.Orderly) {e : EngineId}
    (h : c.start? e = some c') : ∃ s d rest, s.id = e ∧ c.Start s d rest c' := by
  have hbackdrop := backdrop_start? h
  unfold start? at h
  split at h
  · cases h
  · rename_i s hs
    -- The engines are filed under their numbers.
    have hid : s.id = e := horderly.id_of_engine? hs
    subst hid
    split at h
    · rename_i hfree
      split at h
      · cases h
      · rename_i d rest hpop
        injection h with h
        subst h
        exact ⟨s, d, rest.items, rfl, hs, hfree, Queue.toList_of_pop? hpop, hbackdrop,
          traffic_call c { s with waiting := rest } d _⟩
    · cases h

/-- The cluster after a worker has ended the run `r`, and before it makes any copies. -/
def close (c : Cluster) (r : Run) (elapsed : Duration) : Cluster :=
  let freed := { c with running := c.running.filter fun q => q.delivery.id != r.delivery.id }
  let marked := (freed.observe r.delivery.task elapsed).modifyTask r.delivery.task
    fun t => t.setSpan elapsed
  let settled := marked.settleTask r.delivery.task r.outcome.result
  { settled with finished := settled.finished ++ [⟨r.delivery, .executed, r.outcome.result⟩] }

theorem traffic_close (c : Cluster) (r : Run) (elapsed : Duration) :
    (c.close r elapsed).traffic = { c.traffic with
      running := c.running.filter fun q => q.delivery.id != r.delivery.id
      finished := c.finished ++ [⟨r.delivery, .executed, r.outcome.result⟩] } := by
  unfold close
  dsimp only
  -- Everything but the last field is about tasks, which the traffic does not see.
  generalize hsettled : (Cluster.modifyTask _ r.delivery.task _).settleTask r.delivery.task _ = c₁
  have htraffic : c₁.traffic = { c.traffic with
      running := c.running.filter fun q => q.delivery.id != r.delivery.id } := by
    rw [← hsettled, traffic_settleTask, traffic_modifyTask, traffic_observe]
    rfl
  have hfinished : c₁.finished = c.finished := congrArg Traffic.finished htraffic
  change ({ c₁.traffic with
    finished := c₁.finished ++ [⟨r.delivery, .executed, r.outcome.result⟩] } : Traffic) = _
  rw [htraffic, hfinished]

/-- A worker brings the run `r` to its end. -/
structure Completion (c : Cluster) (r : Run) (elapsed : Duration) (c' : Cluster) : Prop where
  found : c.running.find? (fun q => q.delivery.id == r.delivery.id) = some r
  free : r.isHeld = false
  after : c' =
    if ((c.close r elapsed).task? r.delivery.task).any Task.broadcasts && r.outcome.result.isOk then
      (c.close r elapsed).broadcast r.delivery.task
    else c.close r elapsed

theorem completion_of_complete? {d : Nat} {elapsed : Duration}
    (h : c.complete? d elapsed = some c') :
    ∃ r, r.delivery.id = d ∧ c.Completion r elapsed c' := by
  unfold complete? at h
  split at h
  · cases h
  · rename_i r hr
    have hid := List.find?_some hr
    have hid : r.delivery.id = d := eq_of_beq hid
    subst hid
    split at h
    · cases h
    · rename_i hfree
      injection h with h
      exact ⟨r, rfl, hr, by simpa using hfree, h.symm⟩

/-! ## The memory stage -/

theorem admitted_of_admitMemory? (h : c.admitMemory? = some c') :
    ∃ t rest, c.memory.isStarted ∧ c.memory.queue.items = t :: rest ∧ c' = { c with memory :=
      { c.memory with queue := ⟨rest⟩, waiting := c.memory.waiting.push t } } := by
  unfold admitMemory? at h
  split at h
  · rename_i hstarted
    split at h
    · cases h
    · rename_i t rest hpop
      exact ⟨t, rest.items, hstarted, Queue.toList_of_pop? hpop, (Option.some.inj h).symm⟩
  · cases h

theorem started_of_startMemory? (h : c.startMemory? = some c') :
    ∃ t rest, c.memory.running.length < c.memory.workers ∧
      c.memory.waiting.items = t :: rest ∧ c' = { c with memory :=
        { c.memory with waiting := ⟨rest⟩, running := c.memory.running ++ [t] } } := by
  unfold startMemory? at h
  split at h
  · rename_i hfree
    split at h
    · cases h
    · rename_i t rest hpop
      exact ⟨t, rest.items, hfree, Queue.toList_of_pop? hpop, (Option.some.inj h).symm⟩
  · cases h

variable [PatternLibrary]

/-- The cluster after a memory worker has run its task, and before the follower of the task has
heard of it. -/
def runStaged (c : Cluster) (t : TaskId) (elapsed : Duration) : Cluster :=
  (c.executeMemory t).1.modifyTask t fun x => (x.setSpan elapsed).setResult (c.executeMemory t).2

theorem chain_of_runMemory? {t : TaskId} {elapsed : Duration}
    (h : c.runMemory? t elapsed = some c') :
    t ∈ c.memory.running ∧ ∃ c₂ released, (c.runStaged t elapsed).release t = (c₂, released) ∧
      c' = { c₂ with memory :=
        { c₂.memory with running := c₂.memory.running.erase t ++ released.toList } } := by
  unfold runMemory? at h
  split at h
  · rename_i hrunning
    exact ⟨List.contains_iff_mem.mp hrunning, _, _, rfl, (Option.some.inj h).symm⟩
  · cases h

end Cluster
end SeriesExec
