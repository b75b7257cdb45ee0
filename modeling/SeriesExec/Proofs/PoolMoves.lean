import Mathlib.Data.List.Nodup
import SeriesExec.Pool

/-!
# Moves of a pool — one worker at a time

A request to a pool brings with it everything that follows until no job can move.  Here the workers
move one at a time and in any order, and requests come in between.  This file defines:

* `Pool.Request` and `Pool.Move` — what can be asked of a pool, and what a worker does;
* `Pool.run?` — the pool after a history of both, if the history can happen;
* `Pool.isSettled` — no worker can move;
* `Pool.Sound` — which job is where after a history.

A pool can be dropped at any time.  A worker that waits stops at once, and one that does not goes on
until it has to wait.  Nothing says which of them that are, so after a drop all workers may go on,
unless the pool was settled, and at some time they have stopped.

Main statements: a pool is settled exactly if no move is possible (`isSettled_iff`), and histories
keep it sound (`sound_of_run?`).
-/

namespace SeriesExec

/-- The job once it has got through the gate. -/
def Job.entered (j : Job) : Job :=
  { j with kind := { j.kind with gated := false } }

namespace Pool

variable {p p' : Pool} {kinds : List JobKind} {j : Job} {i : JobId} {size : Nat}

/-! ## Moves -/

/-- What can be asked of a pool. -/
inductive Request where
  | submit (kinds : List JobKind)
  | openGate (n : Nat)
  | drop
  deriving DecidableEq, Repr, Inhabited

/-- What a worker does. -/
inductive Move where
  /-- An idle worker takes the first waiting job. -/
  | take
  /-- A job at the gate takes a permit. -/
  | enter (job : JobId)
  /-- A job that waits for nothing goes through to its end. -/
  | finish (job : JobId)
  /-- The last worker of a dropped pool has come to a stop; all jobs that it still had are given
  up. -/
  | stop
  deriving DecidableEq, Repr, Inhabited

inductive Event where
  | asked (r : Request)
  | moved (m : Move)
  deriving DecidableEq, Repr, Inhabited

def take? (p : Pool) : Option Pool :=
  if !p.stopped && decide (p.running.length < p.size) then
    p.waiting.pop?.map fun (j, rest) =>
      { p with waiting := rest, started := p.started ++ [j.id], running := p.running ++ [j] }
  else none

def enter? (p : Pool) (i : JobId) : Option Pool :=
  if p.permits = 0 then none
  else
    (p.running.find? fun j => j.id == i && j.kind.gated).map fun _ =>
      { p with
        permits := p.permits - 1
        running := p.running.map fun j => if j.id = i then j.entered else j }

def finish? (p : Pool) (i : JobId) : Option Pool :=
  (p.running.find? fun j => j.id == i && !j.kind.gated).map fun j =>
    { p with running := p.running.filter fun j => j.id != i }.finish j

def stop? (p : Pool) : Option Pool :=
  if p.dropped && !p.stopped then some p.drop else none

/-- The pool after a move, if the move is possible. -/
def move? (p : Pool) : Move → Option Pool
  | .take => p.take?
  | .enter i => p.enter? i
  | .finish i => p.finish? i
  | .stop => p.stop?

/-- No worker can take a job, all jobs wait for a permit, and no worker is still to stop. -/
def isSettled (p : Pool) : Bool :=
  (p.stopped || p.waiting.isEmpty || decide (p.size ≤ p.running.length)) &&
    p.running.all (fun j => j.kind.gated) && (p.running.isEmpty || p.permits == 0) &&
    (!p.dropped || p.stopped)

/-- The pool right after a request, before any worker has moved. -/
def ask (p : Pool) : Request → Pool
  | .submit kinds => kinds.foldl enqueue p
  | .openGate n => { p with permits := p.permits + n }
  -- In a settled pool all workers wait, for a job or for a permit, so none goes on.
  | .drop => if p.isSettled then p.drop else { p with dropped := true }

/-- The pool after an event.  A request can always be made, a move has to be possible. -/
def after? (p : Pool) : Event → Option Pool
  | .asked r => some (p.ask r)
  | .moved m => p.move? m

/-- The pool after a history, if it can happen. -/
def run? (p : Pool) : List Event → Option Pool
  | [] => some p
  | e :: rest => (p.after? e).bind fun p' => p'.run? rest

theorem run?_append (p : Pool) (first second : List Event) :
    p.run? (first ++ second) = (p.run? first).bind fun p' => p'.run? second := by
  induction first generalizing p with
  | nil => rfl
  | cons e rest ih => simp [run?, ih, Option.bind_assoc]

/-- The jobs that an event submits. -/
def Event.submitted : Event → List JobKind
  | .asked (.submit kinds) => kinds
  | _ => []

/-- The jobs that a history submits, in order. -/
def submissions (events : List Event) : List JobKind :=
  events.flatMap Event.submitted

/-! ## Settled pools -/

theorem take?_eq_none_iff : p.take? = none ↔
    (p.stopped || p.waiting.isEmpty || decide (p.size ≤ p.running.length)) = true := by
  rw [take?, Queue.pop?, Queue.isEmpty]
  cases p.stopped <;> cases p.waiting.items <;> simp

theorem enter?_eq_none_iff : (∀ i, p.enter? i = none) ↔
    p.permits = 0 ∨ ∀ j ∈ p.running, j.kind.gated = false := by
  by_cases hpermits : p.permits = 0
  · exact iff_of_true (fun i => if_pos hpermits) (.inl hpermits)
  · have hgate : ∀ i, p.enter? i = none ↔
        ∀ j ∈ p.running, j.id = i → j.kind.gated = false := fun i => by
      rw [enter?, if_neg hpermits]
      simp
    simp only [hgate, hpermits, false_or]
    exact ⟨fun h j hj => h j.id j hj rfl, fun h _ j hj _ => h j hj⟩

theorem finish?_eq_none_iff : (∀ i, p.finish? i = none) ↔
    ∀ j ∈ p.running, j.kind.gated = true := by
  simp only [finish?, Option.map_eq_none_iff, List.find?_eq_none, Bool.and_eq_true, beq_iff_eq,
    Bool.not_eq_true', not_and, Bool.not_eq_false]
  exact ⟨fun h j hj => h j.id j hj rfl, fun h _ j hj _ => h j hj⟩

theorem stop?_eq_none_iff : p.stop? = none ↔ (!p.dropped || p.stopped) = true := by
  rw [stop?]
  cases p.dropped <;> cases p.stopped <;> simp

/-- A pool is settled exactly if no move is possible. -/
theorem isSettled_iff : p.isSettled = true ↔ ∀ m, p.move? m = none := by
  have hmoves : (∀ m, p.move? m = none) ↔
      (p.take? = none ∧ (∀ i, p.finish? i = none) ∧ ∀ i, p.enter? i = none) ∧ p.stop? = none := by
    refine ⟨fun h => ⟨⟨h .take, fun i => h (.finish i), fun i => h (.enter i)⟩, h .stop⟩,
      fun h m => ?_⟩
    cases m with
    | take => exact h.1.1
    | enter i => exact h.1.2.2 i
    | finish i => exact h.1.2.1 i
    | stop => exact h.2
  rw [hmoves, take?_eq_none_iff, enter?_eq_none_iff, finish?_eq_none_iff, stop?_eq_none_iff,
    isSettled, Bool.and_eq_true, Bool.and_eq_true, Bool.and_eq_true, List.all_eq_true]
  refine and_congr_left fun _ => ?_
  rw [and_assoc]
  refine and_congr_right fun _ => and_congr_right fun hgated => ?_
  rw [Bool.or_eq_true, List.isEmpty_iff, beq_iff_eq, or_comm]
  -- Where all jobs are at the gate, none is only if there are no jobs.
  have hnone : p.running = [] ↔ ∀ j ∈ p.running, j.kind.gated = false := by
    refine ⟨fun h j hj => ?_, fun h => List.eq_nil_iff_forall_not_mem.mpr fun j hj => ?_⟩
    · rw [h] at hj
      cases hj
    · exact Bool.noConfusion ((hgated j hj).symm.trans (h j hj))
  exact or_congr_right hnone

/-! ## Soundness -/

/-- The job is the one that was submitted at its position.  It may have got through the gate since
then. -/
def IsOf (kinds : List JobKind) (j : Job) : Prop :=
  ∃ k, kinds[j.id]? = some k ∧ k.panics = j.kind.panics ∧ (j.kind.gated = true → k.gated = true)

/-- What holds of a pool of this size to which jobs of these kinds have been submitted:

* the jobs that have started and those that wait are all of them, in order;
* each worker has one job, and it has started;
* a job that has finished has started, does not panic, and occupies no worker;
* until the workers have stopped, a job that has started and occupies no worker has finished or
  panics;
* workers that have stopped have no jobs, and they stop only if the pool is dropped. -/
structure Sound (size : Nat) (kinds : List JobKind) (p : Pool) : Prop where
  size : p.size = max size 1
  submitted : p.submitted = kinds.length
  order : p.started ++ p.waiting.items.map Job.id = List.range kinds.length
  waiting : ∀ j ∈ p.waiting.items, kinds[j.id]? = some j.kind
  running : ∀ j ∈ p.running, j.id ∈ p.started ∧ IsOf kinds j
  distinct : (p.running.map Job.id).Nodup
  bounded : p.running.length ≤ p.size
  once : p.finished.Nodup
  finished : ∀ i ∈ p.finished, i ∈ p.started ∧ i ∉ p.running.map Job.id ∧
    ∃ k, kinds[i]? = some k ∧ k.panics = false
  ended : p.stopped = false → ∀ i ∈ p.started, i ∉ p.running.map Job.id → i ∉ p.finished →
    ∃ k, kinds[i]? = some k ∧ k.panics = true
  idle : p.stopped = true → p.running = []
  told : p.stopped = true → p.dropped = true

theorem getElem?_snoc {k k' : JobKind} (h : kinds[i]? = some k) :
    (kinds ++ [k'])[i]? = some k := by
  rw [List.getElem?_append_left (List.getElem?_eq_some_iff.mp h).1, h]

theorem sound_new (size : Nat) : Sound size [] (new size) where
  size := rfl
  submitted := rfl
  order := rfl
  waiting := fun _ hj => nomatch hj
  running := fun _ hj => nomatch hj
  distinct := List.nodup_nil
  bounded := Nat.zero_le _
  once := List.nodup_nil
  finished := fun _ hi => nomatch hi
  ended := fun _ _ hi => nomatch hi
  idle := fun _ => rfl
  told := fun hstopped => Bool.noConfusion hstopped

theorem Sound.enqueue (h : Sound size kinds p) (k : JobKind) :
    Sound size (kinds ++ [k]) (p.enqueue k) where
  size := h.size
  submitted := by rw [List.length_append, Pool.enqueue, h.submitted]; rfl
  order := by
    rw [List.length_append, List.length_singleton, List.range_succ, ← h.order, List.append_assoc,
      Pool.enqueue, h.submitted, Queue.push, List.map_append]
    rfl
  waiting := by
    intro j hj
    rcases List.mem_append.mp hj with hj | hj
    · exact getElem?_snoc (h.waiting j hj)
    · rw [List.mem_singleton.mp hj, h.submitted]
      exact List.getElem?_concat_length
  running := fun j hj =>
    have ⟨hstarted, k', hk', hrest⟩ := h.running j hj
    ⟨hstarted, k', getElem?_snoc hk', hrest⟩
  distinct := h.distinct
  bounded := h.bounded
  once := h.once
  finished := fun i hi =>
    have ⟨hstarted, hfree, k', hk', hpanics⟩ := h.finished i hi
    ⟨hstarted, hfree, k', getElem?_snoc hk', hpanics⟩
  ended := fun hopen i hi hfree hnot =>
    have ⟨k', hk', hpanics⟩ := h.ended hopen i hi hfree hnot
    ⟨k', getElem?_snoc hk', hpanics⟩
  idle := h.idle
  told := h.told

theorem Sound.submit (h : Sound size kinds p) (new : List JobKind) :
    Sound size (kinds ++ new) (new.foldl Pool.enqueue p) := by
  induction new generalizing kinds p with
  | nil => exact (List.append_nil kinds).symm ▸ h
  | cons k rest ih =>
    rw [List.append_cons]
    exact ih (h.enqueue k)

theorem Sound.setPermits (h : Sound size kinds p) (n : Nat) :
    Sound size kinds { p with permits := n } :=
  ⟨h.size, h.submitted, h.order, h.waiting, h.running, h.distinct, h.bounded, h.once, h.finished,
    h.ended, h.idle, h.told⟩

theorem Sound.setDropped (h : Sound size kinds p) : Sound size kinds { p with dropped := true } :=
  ⟨h.size, h.submitted, h.order, h.waiting, h.running, h.distinct, h.bounded, h.once, h.finished,
    h.ended, h.idle, fun _ => rfl⟩

theorem Sound.drop (h : Sound size kinds p) : Sound size kinds p.drop where
  size := h.size
  submitted := h.submitted
  order := h.order
  waiting := h.waiting
  running := fun _ hj => nomatch hj
  distinct := List.nodup_nil
  bounded := Nat.zero_le _
  once := h.once
  finished := fun i hi =>
    have ⟨hstarted, _, hkind⟩ := h.finished i hi
    ⟨hstarted, List.not_mem_nil, hkind⟩
  ended := fun hopen => Bool.noConfusion hopen
  idle := fun _ => rfl
  told := fun _ => rfl

/-! ## What a move does -/

theorem taken_of_take? (h : p.take? = some p') : ∃ j rest, p.stopped = false ∧
    p.running.length < p.size ∧ p.waiting.items = j :: rest ∧
    p' = { p with
      waiting := ⟨rest⟩
      started := p.started ++ [j.id]
      running := p.running ++ [j] } := by
  unfold take? at h
  split at h
  · rename_i hfree
    simp only [Bool.and_eq_true, Bool.not_eq_true', decide_eq_true_eq] at hfree
    obtain ⟨⟨j, rest⟩, hpop, rfl⟩ := Option.map_eq_some_iff.mp h
    exact ⟨j, rest.items, hfree.1, hfree.2, Queue.toList_of_pop? hpop, rfl⟩
  · cases h

theorem entered_of_enter? (h : p.enter? i = some p') :
    (∃ j ∈ p.running, j.id = i ∧ j.kind.gated = true) ∧ 0 < p.permits ∧
    p' = { p with
      permits := p.permits - 1
      running := p.running.map fun j => if j.id = i then j.entered else j } := by
  unfold enter? at h
  split at h
  · cases h
  · rename_i hpermits
    obtain ⟨j, hfound, rfl⟩ := Option.map_eq_some_iff.mp h
    have hj := List.find?_some hfound
    simp only [Bool.and_eq_true, beq_iff_eq] at hj
    exact ⟨⟨j, List.mem_of_find?_eq_some hfound, hj⟩, Nat.pos_of_ne_zero hpermits, rfl⟩

theorem finished_of_finish? (h : p.finish? i = some p') :
    ∃ j ∈ p.running, j.id = i ∧ j.kind.gated = false ∧
      p' = { p with running := p.running.filter fun j => j.id != i }.finish j := by
  obtain ⟨j, hfound, rfl⟩ := Option.map_eq_some_iff.mp h
  have hj := List.find?_some hfound
  simp only [Bool.and_eq_true, beq_iff_eq, Bool.not_eq_true'] at hj
  exact ⟨j, List.mem_of_find?_eq_some hfound, hj.1, hj.2, rfl⟩

theorem dropped_of_stop? (h : p.stop? = some p') : p.dropped = true ∧ p' = p.drop := by
  obtain ⟨hdropped, hp'⟩ := Option.ite_none_right_eq_some.mp h
  exact ⟨(Bool.and_eq_true_iff.mp hdropped).1, (Option.some.inj hp').symm⟩

theorem Sound.take? (h : Sound size kinds p) (hmove : p.take? = some p') :
    Sound size kinds p' := by
  obtain ⟨j, rest, hopen, hfree, hwaiting, rfl⟩ := taken_of_take? hmove
  have hnodup : (p.started ++ p.waiting.items.map Job.id).Nodup := h.order ▸ List.nodup_range
  rw [hwaiting] at hnodup
  -- The first waiting job has not started.
  have hnew : j.id ∉ p.started := fun hj =>
    (List.nodup_append.mp hnodup).2.2 j.id hj j.id List.mem_cons_self rfl
  have hkind := h.waiting j (hwaiting ▸ List.mem_cons_self)
  refine ⟨h.size, h.submitted, ?_,
    fun j' hj' => h.waiting j' (hwaiting ▸ List.mem_cons_of_mem _ hj'), ?_, ?_, ?_, h.once, ?_, ?_,
    fun hstopped => Bool.noConfusion (hopen.symm.trans hstopped), h.told⟩
  · rw [← h.order, hwaiting, List.append_assoc]
    rfl
  · intro j' hj'
    rcases List.mem_append.mp hj' with hj' | hj'
    · exact ⟨List.mem_append_left _ (h.running j' hj').1, (h.running j' hj').2⟩
    · obtain rfl := List.mem_singleton.mp hj'
      exact ⟨List.mem_append_right _ List.mem_cons_self, j'.kind, hkind, rfl, id⟩
  · dsimp only
    rw [List.map_append, List.nodup_append]
    refine ⟨h.distinct, List.nodup_singleton _, ?_⟩
    rintro a ha b hb rfl
    obtain ⟨j', hj', rfl⟩ := List.mem_map.mp ha
    exact hnew (List.mem_singleton.mp hb ▸ (h.running j' hj').1)
  · dsimp only
    rw [List.length_append]
    exact hfree
  · intro i hi
    obtain ⟨hstarted, hnot, hpanics⟩ := h.finished i hi
    refine ⟨List.mem_append_left _ hstarted, fun hmem => ?_, hpanics⟩
    rw [List.map_append] at hmem
    rcases List.mem_append.mp hmem with hmem | hmem
    · exact hnot hmem
    · exact hnew (List.mem_singleton.mp hmem ▸ hstarted)
  · intro _ i hi hnot hfinished
    rw [List.map_append, List.mem_append, not_or] at hnot
    rcases List.mem_append.mp hi with hi | hi
    · exact h.ended hopen i hi hnot.1 hfinished
    · exact absurd hi hnot.2

theorem Sound.enter? (h : Sound size kinds p) (hmove : p.enter? i = some p') :
    Sound size kinds p' := by
  obtain ⟨-, -, rfl⟩ := entered_of_enter? hmove
  have hids : (p.running.map fun j => if j.id = i then j.entered else j).map Job.id =
      p.running.map Job.id := by
    rw [List.map_map]
    refine List.map_congr_left fun j _ => ?_
    by_cases hj : j.id = i <;> simp [hj, Job.entered]
  refine ⟨h.size, h.submitted, h.order, h.waiting, ?_, hids ▸ h.distinct, ?_, h.once, ?_, ?_, ?_,
    h.told⟩
  · intro j hj
    obtain ⟨j', hj', rfl⟩ := List.mem_map.mp hj
    obtain ⟨hstarted, k, hk, hpanics, hgated⟩ := h.running j' hj'
    by_cases hi : j'.id = i
    · rw [if_pos hi]
      exact ⟨hstarted, k, hk, hpanics, fun hno => nomatch hno⟩
    · rw [if_neg hi]
      exact ⟨hstarted, k, hk, hpanics, hgated⟩
  · exact Nat.le_trans (Nat.le_of_eq (List.length_map _)) h.bounded
  · exact fun i hi => hids.symm ▸ h.finished i hi
  · exact fun hopen i hi => hids.symm ▸ h.ended hopen i hi
  · exact fun hstopped => List.map_eq_nil_iff.mpr (h.idle hstopped)

theorem finish_eq (p : Pool) (j : Job) : p.finish j =
    { p with finished := p.finished ++ if j.kind.panics then [] else [j.id] } := by
  rw [finish]
  split
  · rw [List.append_nil]
  · rfl

theorem Sound.finish? (h : Sound size kinds p) (hmove : p.finish? i = some p') :
    Sound size kinds p' := by
  obtain ⟨j, hj, rfl, -, rfl⟩ := finished_of_finish? hmove
  obtain ⟨hstarted, k, hk, hpanics, -⟩ := h.running j hj
  have hsub : (p.running.filter fun j' => j'.id != j.id).Sublist p.running := List.filter_sublist
  have hgone : j.id ∉ (p.running.filter fun j' => j'.id != j.id).map Job.id := by
    intro hmem
    obtain ⟨j', hj', hid⟩ := List.mem_map.mp hmem
    exact bne_iff_ne.mp (List.mem_filter.mp hj').2 hid
  have hrest : ∀ i, i ≠ j.id → i ∉ (p.running.filter fun j' => j'.id != j.id).map Job.id →
      i ∉ p.running.map Job.id := by
    intro i hi hnot hmem
    obtain ⟨j', hj', rfl⟩ := List.mem_map.mp hmem
    exact hnot (List.mem_map_of_mem (List.mem_filter.mpr ⟨hj', bne_iff_ne.mpr hi⟩))
  -- The job is recorded unless it panics.
  have hnew : ∀ i, i ∈ (if j.kind.panics then [] else [j.id]) ↔
      i = j.id ∧ j.kind.panics = false := fun i => by
    cases j.kind.panics <;> simp
  rw [finish_eq]
  refine ⟨h.size, h.submitted, h.order, h.waiting,
    fun j' hj' => h.running j' (hsub.subset hj'), h.distinct.sublist (hsub.map _),
    Nat.le_trans hsub.length_le h.bounded, ?_, ?_, ?_, ?_, h.told⟩
  · refine List.nodup_append.mpr ⟨h.once, by split <;> simp, ?_⟩
    rintro a ha b hb rfl
    obtain ⟨rfl, -⟩ := (hnew a).mp hb
    exact (h.finished _ ha).2.1 (List.mem_map_of_mem hj)
  · intro i hi
    rcases List.mem_append.mp hi with hi | hi
    · obtain ⟨hi', hnot, hkind⟩ := h.finished i hi
      exact ⟨hi', fun hmem => hnot ((hsub.map Job.id).subset hmem), hkind⟩
    · obtain ⟨rfl, hpanic⟩ := (hnew i).mp hi
      exact ⟨hstarted, hgone, k, hk, hpanics.trans hpanic⟩
  · intro hopen i hi hnot hno
    rw [List.mem_append, not_or, hnew] at hno
    by_cases hij : i = j.id
    · obtain rfl := hij
      exact ⟨k, hk, hpanics.trans (by simpa using hno.2)⟩
    · exact h.ended hopen i hi (hrest i hij hnot) hno.1
  · intro hstopped
    have hnone : p.running = [] := h.idle hstopped
    rw [hnone] at hj
    cases hj

theorem Sound.after? (h : Sound size kinds p) {e : Event} (hafter : p.after? e = some p') :
    Sound size (kinds ++ e.submitted) p' := by
  have hsame : ∀ {p₁ : Pool}, Sound size kinds p₁ → Sound size (kinds ++ []) p₁ :=
    fun h₁ => (List.append_nil kinds).symm ▸ h₁
  cases e with
  | asked r =>
    cases r with
    | submit new => exact Option.some.inj hafter ▸ h.submit new
    | openGate n => exact hsame (Option.some.inj hafter ▸ h.setPermits _)
    | drop =>
      refine hsame (Option.some.inj hafter ▸ ?_)
      change Sound size kinds (if p.isSettled then p.drop else { p with dropped := true })
      split
      · exact h.drop
      · exact h.setDropped
  | moved m =>
    cases m with
    | take => exact hsame (h.take? hafter)
    | enter i => exact hsame (h.enter? hafter)
    | finish i => exact hsame (h.finish? hafter)
    | stop =>
      obtain ⟨-, rfl⟩ := dropped_of_stop? hafter
      exact hsame h.drop

/-- Every history keeps a pool sound. -/
theorem Sound.run? (h : Sound size kinds p) {events : List Event} (hrun : p.run? events = some p') :
    Sound size (kinds ++ submissions events) p' := by
  induction events generalizing kinds p with
  | nil =>
    cases hrun
    exact (List.append_nil kinds).symm ▸ h
  | cons e rest ih =>
    obtain ⟨p₁, hafter, hrest⟩ := Option.bind_eq_some_iff.mp hrun
    rw [submissions, List.flatMap_cons, ← List.append_assoc]
    exact ih (h.after? hafter) hrest

theorem sound_of_run? {events : List Event} (hrun : (new size).run? events = some p) :
    Sound size (submissions events) p :=
  (sound_new size).run? hrun

end Pool
end SeriesExec
