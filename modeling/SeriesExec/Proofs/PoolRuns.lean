import Mathlib.Data.List.Infix
import SeriesExec.Proofs.PoolMoves

/-!
# Runs of a pool — the order of its jobs

A request with all that follows from it is a row of moves.  This file defines:

* `Pool.Reaches` — what the workers can make of a pool, one move after the other;
* `Pool.obey` — a request, and the workers' moves until none is possible;
* `Pool.Calm` — all jobs that run are at the gate, and the first of them are to be let through;
* `Pool.Orderly` and `Pool.Busy` — what a pool shows of its jobs at any time, and once settled.

Main statement: `jobs_run_in_order`.
-/

namespace SeriesExec
namespace Pool

variable {p p' q : Pool} {kinds : List JobKind} {j : Job}
  {jobs before after : List Job} {size k : Nat}

/-- The workers can get from one pool to the other. -/
def Reaches (p p' : Pool) : Prop :=
  ∃ moves : List Move, p.run? (moves.map .moved) = some p'

theorem Reaches.refl (p : Pool) : Reaches p p :=
  ⟨[], rfl⟩

theorem Reaches.trans (h : Reaches p p') (h' : Reaches p' q) : Reaches p q := by
  obtain ⟨moves, hmoves⟩ := h
  obtain ⟨moves', hmoves'⟩ := h'
  refine ⟨moves ++ moves', ?_⟩
  rw [List.map_append, run?_append, hmoves]
  exact hmoves'

theorem Reaches.of_move {m : Move} (h : p.move? m = some p') : Reaches p p' := by
  refine ⟨[m], ?_⟩
  rw [List.map_singleton, run?, after?, h]
  rfl

theorem Sound.reaches (h : Sound size kinds p) (hreach : Reaches p p') : Sound size kinds p' := by
  obtain ⟨moves, hmoves⟩ := hreach
  have hnone : submissions (moves.map .moved) = [] := by
    rw [submissions, List.flatMap_map]
    exact List.flatMap_eq_nil_iff.mpr fun _ _ => rfl
  rw [← List.append_nil kinds, ← hnone]
  exact h.run? hmoves

/-- No job waits or runs twice. -/
theorem Sound.apart (h : Sound size kinds p) :
    ((p.running ++ p.waiting.items).map Job.id).Nodup := by
  have hnodup : (p.started ++ p.waiting.items.map Job.id).Nodup := h.order ▸ List.nodup_range
  obtain ⟨-, hwaiting, hdisjoint⟩ := List.nodup_append.mp hnodup
  rw [List.map_append, List.nodup_append]
  refine ⟨h.distinct, hwaiting, fun a ha => hdisjoint a ?_⟩
  obtain ⟨j, hj, rfl⟩ := List.mem_map.mp ha
  exact (h.running j hj).1

/-- The workers do not stop before the pool is dropped. -/
theorem Sound.going (h : Sound size kinds p) (hopen : p.dropped = false) : p.stopped = false := by
  by_contra hstopped
  rw [h.told (Bool.not_eq_false _ ▸ hstopped)] at hopen
  cases hopen

/-! ## Requests as rows of moves -/

/-- The pool with more permits. -/
def spare (k : Nat) (p : Pool) : Pool :=
  { p with permits := p.permits + k }

/-- The pool with other waiting jobs. -/
def withWaiting (p : Pool) (jobs : List Job) : Pool :=
  { p with waiting := ⟨jobs⟩ }

/-- Whether the job has to wait at the gate when it starts. -/
def stays (p : Pool) (j : Job) : Bool :=
  j.kind.gated && p.permits == 0

theorem start_eq (p : Pool) (j : Job) : p.start j =
    if p.stays j then { p with started := p.started ++ [j.id], running := p.running ++ [j] }
    else ({ p with
      started := p.started ++ [j.id]
      permits := p.permits - j.kind.gated.toNat }).finish j := by
  unfold start stays
  cases j.kind.gated
  · rfl
  · by_cases h : p.permits = 0 <;> simp [h]

theorem id_ne_of_nodup (hdistinct : ((before ++ j :: after).map Job.id).Nodup) :
    (∀ j' ∈ before, j'.id ≠ j.id) ∧ ∀ j' ∈ after, j'.id ≠ j.id := by
  rw [List.map_append, List.map_cons, List.nodup_middle, List.nodup_cons,
    ← List.map_append] at hdistinct
  have hother : ∀ j' ∈ before ++ after, j'.id ≠ j.id := fun j' hj' h =>
    hdistinct.1 (h ▸ List.mem_map_of_mem hj')
  exact ⟨fun j' hj' => hother j' (List.mem_append_left _ hj'),
    fun j' hj' => hother j' (List.mem_append_right _ hj')⟩

theorem find?_split {P : Job → Bool} (hbefore : ∀ j' ∈ before, j'.id ≠ j.id) (hj : P j = true) :
    (before ++ j :: after).find? (fun j' => j'.id == j.id && P j') = some j := by
  rw [List.find?_append, List.find?_eq_none.mpr fun j' hj' => by simp [hbefore j' hj']]
  simp [hj]

theorem finish?_of_running (hrunning : p.running = before ++ j :: after)
    (hdistinct : (p.running.map Job.id).Nodup) (hfree : j.kind.gated = false) :
    p.finish? j.id = some ({ p with running := before ++ after }.finish j) := by
  rw [hrunning] at hdistinct
  obtain ⟨hbefore, hafter⟩ := id_ne_of_nodup hdistinct
  have hfilter : (before ++ j :: after).filter (fun j' => j'.id != j.id) = before ++ after := by
    rw [List.filter_append, List.filter_eq_self.mpr fun j' hj' => bne_iff_ne.mpr (hbefore j' hj'),
      List.filter_cons_of_neg (by simp),
      List.filter_eq_self.mpr fun j' hj' => bne_iff_ne.mpr (hafter j' hj')]
  rw [finish?, hrunning, find?_split hbefore (by simp [hfree]), Option.map_some, hfilter]

theorem enter?_of_running (hrunning : p.running = before ++ j :: after)
    (hdistinct : (p.running.map Job.id).Nodup) (hgated : j.kind.gated = true)
    (hpermits : 0 < p.permits) :
    p.enter? j.id = some { p with
      permits := p.permits - 1
      running := before ++ j.entered :: after } := by
  rw [hrunning] at hdistinct
  obtain ⟨hbefore, hafter⟩ := id_ne_of_nodup hdistinct
  have hmap : (before ++ j :: after).map (fun j' => if j'.id = j.id then j'.entered else j') =
      before ++ j.entered :: after := by
    rw [List.map_append, List.map_cons, if_pos rfl,
      List.map_congr_left fun j' hj' => if_neg (hbefore j' hj'),
      List.map_congr_left fun j' hj' => if_neg (hafter j' hj'), List.map_id', List.map_id']
  rw [enter?, if_neg hpermits.ne', hrunning, find?_split hbefore hgated, Option.map_some, hmap]

/-- A job at the gate takes a permit and goes through to its end. -/
theorem Reaches.through (hrunning : p.running = before ++ j :: after)
    (hdistinct : (p.running.map Job.id).Nodup) (hgated : j.kind.gated = true)
    (hpermits : 0 < p.permits) :
    Reaches p ({ p with permits := p.permits - 1, running := before ++ after }.finish j) := by
  let q : Pool := { p with
    permits := p.permits - 1
    running := before ++ j.entered :: after }
  have hids : q.running.map Job.id = p.running.map Job.id := by
    rw [hrunning, List.map_append, List.map_append]
    rfl
  have henter : p.enter? j.id = some q := enter?_of_running hrunning hdistinct hgated hpermits
  have hfinish := finish?_of_running (p := q) (j := j.entered) rfl (hids ▸ hdistinct) rfl
  refine .trans (.of_move (m := .enter j.id) henter) (.of_move (m := .finish j.id) ?_)
  refine hfinish.trans (congrArg some ?_)
  rw [finish_eq, finish_eq]
  rfl

/-- A worker takes a job and runs it as far as it goes. -/
theorem Reaches.start {rest : List Job} (hopen : p.stopped = false)
    (hfree : p.running.length < p.size) (hdistinct : ((p.running ++ [j]).map Job.id).Nodup) :
    Reaches (spare k (p.withWaiting (j :: rest))) (spare k ((p.start j).withWaiting rest)) := by
  let q : Pool := { spare k (p.withWaiting rest) with
    started := p.started ++ [j.id]
    running := p.running ++ [j] }
  have htake : Reaches (spare k (p.withWaiting (j :: rest))) q := by
    refine .of_move (m := .take) ?_
    simp [move?, Pool.take?, spare, withWaiting, Queue.pop?, hopen, hfree, q]
  rw [start_eq]
  split
  · exact htake
  rename_i hstays
  refine htake.trans ?_
  rw [finish_eq]
  cases hgated : j.kind.gated
  · refine .of_move (m := .finish j.id) ?_
    refine (finish?_of_running (p := q) rfl hdistinct hgated).trans (congrArg some ?_)
    rw [finish_eq, List.append_nil]
    rfl
  · have hpermits : 0 < p.permits := by
      simpa [stays, hgated, Nat.pos_iff_ne_zero] using hstays
    have hthrough := Reaches.through (p := q) rfl hdistinct hgated (Nat.add_pos_left hpermits k)
    have hless : q.permits - 1 = p.permits - 1 + k := Nat.sub_add_comm hpermits
    rwa [finish_eq, List.append_nil, hless] at hthrough

theorem finish_running (p : Pool) (j : Job) : (p.finish j).running = p.running := by
  rw [finish_eq]

theorem start_running (p : Pool) (j : Job) :
    (p.start j).running = p.running ++ if p.stays j then [j] else [] := by
  rw [start_eq]
  split
  · rfl
  · rw [finish_running, List.append_nil]

theorem start_permits (p : Pool) (j : Job) :
    (p.start j).permits = if p.stays j then p.permits else p.permits - j.kind.gated.toNat := by
  rw [start_eq]
  split
  · rfl
  · rw [finish_eq]

/-- Starting and finishing jobs has nothing to do with whether the pool is dropped. -/
theorem start_dropped (p : Pool) (j : Job) :
    (p.start j).dropped = p.dropped ∧ (p.start j).stopped = p.stopped := by
  rw [start_eq]
  split
  · exact ⟨rfl, rfl⟩
  · rw [finish_eq]
    exact ⟨rfl, rfl⟩

theorem startWaiting_dropped (p : Pool) (jobs : List Job) :
    (p.startWaiting jobs).dropped = p.dropped ∧ (p.startWaiting jobs).stopped = p.stopped := by
  induction jobs generalizing p with
  | nil => exact ⟨rfl, rfl⟩
  | cons j rest ih =>
    rw [startWaiting]
    split
    · rw [(ih _).1, (ih _).2]
      exact start_dropped p j
    · exact ⟨rfl, rfl⟩

/-- The free workers take the waiting jobs, but none of the spare permits. -/
theorem Reaches.startWaiting (hopen : p.stopped = false)
    (happart : ((p.running ++ jobs).map Job.id).Nodup) :
    Reaches (spare k (p.withWaiting jobs)) (spare k (p.startWaiting jobs)) := by
  induction jobs generalizing p with
  | nil => exact .refl _
  | cons j rest ih =>
    rw [Pool.startWaiting]
    split
    · rename_i hfree
      have hdistinct : ((p.running ++ [j]).map Job.id).Nodup :=
        happart.sublist (((List.singleton_sublist.mpr List.mem_cons_self).append_left _).map _)
      have hkept : ((p.start j).running ++ rest).Sublist (p.running ++ j :: rest) := by
        rw [start_running, List.append_assoc]
        refine (List.Sublist.refl _).append ?_
        split
        · exact .refl _
        · exact List.sublist_cons_self j rest
      exact .trans (.start hopen hfree hdistinct)
        (ih ((start_dropped p j).2.trans hopen) (happart.sublist (hkept.map _)))
    · exact .refl _

theorem Reaches.drain (hopen : p.stopped = false)
    (happart : ((p.running ++ p.waiting.items).map Job.id).Nodup) :
    Reaches (spare k p) (spare k p.drain) :=
  .startWaiting hopen happart

/-- The first job at the gate takes one of the spare permits and goes through. -/
theorem Reaches.pass (hopen : p.stopped = false) (hrunning : p.running = j :: after)
    (hgated : j.kind.gated = true)
    (happart : ((p.running ++ p.waiting.items).map Job.id).Nodup) :
    Reaches (spare (k + 1) p) (spare k (p.pass j)) := by
  have hdistinct : (p.running.map Job.id).Nodup :=
    happart.sublist ((List.sublist_append_left _ _).map _)
  have hfirst : (spare (k + 1) p).running = [] ++ j :: after := hrunning
  have hthrough := Reaches.through hfirst hdistinct hgated (Nat.succ_pos _)
  let q : Pool := { p with running := after }.finish j
  have heq : q = { p with
      running := after
      finished := p.finished ++ if j.kind.panics then [] else [j.id] } := finish_eq _ j
  have hq : Reaches (spare (k + 1) p) (spare k q) := by
    rw [finish_eq] at hthrough
    rw [heq]
    exact hthrough
  have hkept : (q.running ++ q.waiting.items).Sublist (p.running ++ p.waiting.items) := by
    rw [heq, hrunning]
    exact List.sublist_cons_self j _
  have hstillopen : q.stopped = false := by
    rw [heq]
    exact hopen
  rw [Pool.pass, hrunning, List.erase_cons_head]
  exact hq.trans (.drain hstillopen (happart.sublist (hkept.map _)))

/-! ## Settled again -/

/-- All jobs that run are at the gate, the first of them are to be let through, and there are spare
permits only if these are all. -/
structure Calm (js : List Job) (p : Pool) : Prop where
  gated : ∀ j ∈ p.running, j.kind.gated = true
  pending : js <+: p.running
  quiet : p.permits = 0 ∨ p.running = js

theorem Calm.start {js : List Job} (h : Calm js p) (j : Job) : Calm js (p.start j) := by
  refine ⟨?_, ?_, ?_⟩
  · rw [start_running]
    intro j' hj'
    rcases List.mem_append.mp hj' with hj' | hj'
    · exact h.gated j' hj'
    · split at hj'
      · rename_i hstays
        rw [List.mem_singleton.mp hj']
        exact (Bool.and_eq_true_iff.mp hstays).1
      · cases hj'
  · rw [start_running]
    exact h.pending.trans (List.prefix_append _ _)
  · rw [start_permits, start_running]
    split
    · rename_i hstays
      exact .inl (beq_iff_eq.mp (Bool.and_eq_true_iff.mp hstays).2)
    · rw [List.append_nil]
      exact h.quiet.imp_left fun hnone => by rw [hnone, Nat.zero_sub]

theorem Calm.withWaiting {js : List Job} (h : Calm js p) (jobs : List Job) :
    Calm js (p.withWaiting jobs) :=
  ⟨h.gated, h.pending, h.quiet⟩

theorem Calm.startWaiting {js : List Job} (h : Calm js p) (jobs : List Job) :
    Calm js (p.startWaiting jobs) := by
  induction jobs generalizing p with
  | nil => exact h.withWaiting []
  | cons j rest ih =>
    rw [Pool.startWaiting]
    split
    · exact ih (h.start j)
    · exact h.withWaiting (j :: rest)

theorem Calm.pass {js : List Job} (h : Calm (j :: js) p) : Calm js (p.pass j) := by
  obtain ⟨after, hrunning⟩ := h.pending
  have hgone : p.running.erase j = js ++ after := by
    rw [← hrunning, List.cons_append, List.erase_cons_head]
  rw [Pool.pass, hgone]
  refine Calm.startWaiting (p := { p with running := js ++ after }.finish j) ?_ _
  rw [finish_eq]
  refine ⟨fun j' hj' => h.gated j' ?_, List.prefix_append _ _, h.quiet.imp_right fun hall => ?_⟩
  · exact hrunning ▸ List.mem_cons_of_mem j hj'
  · rw [← hgone, hall, List.erase_cons_head]

/-- Jobs are left waiting only where all workers have one. -/
def Full (p : Pool) : Prop :=
  p.waiting.items = [] ∨ p.size ≤ p.running.length

theorem full_startWaiting (p : Pool) (jobs : List Job) : (p.startWaiting jobs).Full := by
  induction jobs generalizing p with
  | nil => exact .inl rfl
  | cons j rest ih =>
    rw [startWaiting]
    split
    · exact ih _
    · rename_i hbusy
      exact .inr (Nat.le_of_not_lt hbusy)

theorem isSettled_of_calm (h : Calm [] p)
    (hfull : p.stopped = true ∨ p.dropped = false ∧ p.Full) : p.isSettled = true := by
  have hall : p.running.all (fun j => j.kind.gated) = true := List.all_eq_true.mpr h.gated
  have hquiet : (p.running.isEmpty || p.permits == 0) = true := by
    rcases h.quiet with hnone | hnone <;> simp [hnone]
  rw [isSettled, hall, hquiet, Bool.and_true, Bool.and_true]
  rcases hfull with hstopped | ⟨hopen, hnone | hbusy⟩
  · simp [hstopped]
  · simp [hopen, Queue.isEmpty, hnone]
  · simp [hopen, hbusy]

theorem calm_of_isSettled (h : p.isSettled = true) :
    Calm [] p ∧ (p.stopped = true ∨ p.dropped = false ∧ p.Full) := by
  simp only [isSettled, Bool.and_eq_true, Bool.or_eq_true, decide_eq_true_eq, List.all_eq_true,
    List.isEmpty_iff, beq_iff_eq, Queue.isEmpty, Bool.not_eq_true'] at h
  obtain ⟨⟨⟨hfull, hgated⟩, hquiet⟩, hopen⟩ := h
  refine ⟨⟨hgated, List.nil_prefix, hquiet.symm⟩, ?_⟩
  rcases or_assoc.mp hfull with hstopped | hfull
  · exact .inl hstopped
  · exact hopen.symm.imp_right fun hopen => ⟨hopen, hfull⟩

theorem isSettled_drop (p : Pool) : p.drop.isSettled = true :=
  isSettled_of_calm ⟨List.forall_mem_nil _, List.nil_prefix, .inr rfl⟩ (.inl rfl)

theorem pass_dropped (p : Pool) (j : Job) :
    (p.pass j).dropped = p.dropped ∧ (p.pass j).stopped = p.stopped := by
  rw [pass, drain, (startWaiting_dropped _ _).1, (startWaiting_dropped _ _).2, finish_eq]
  exact ⟨rfl, rfl⟩

/-- The first jobs at the gate take the spare permits, one after the other. -/
theorem Reaches.foldl_pass {js : List Job} (hcalm : Calm js p) (hopen : p.dropped = false)
    (hfull : p.Full) (hsound : Sound size kinds p) :
    Reaches (spare js.length p) (js.foldl Pool.pass p) ∧
      (js.foldl Pool.pass p).isSettled = true := by
  induction js generalizing p with
  | nil => exact ⟨.refl p, isSettled_of_calm hcalm (.inr ⟨hopen, hfull⟩)⟩
  | cons j rest ih =>
    obtain ⟨after, hrunning⟩ := hcalm.pending
    have hgated : j.kind.gated = true :=
      hcalm.gated j (hrunning ▸ List.mem_append_left _ List.mem_cons_self)
    have hpass : Reaches (spare (rest.length + 1) p) (spare rest.length (p.pass j)) :=
      .pass (hsound.going hopen) hrunning.symm hgated hsound.apart
    have hkept : Sound size kinds (p.pass j) :=
      ((hsound.setPermits _).reaches hpass).setPermits (p.pass j).permits
    obtain ⟨hreach, hsettled⟩ := ih hcalm.pass ((pass_dropped p j).1.trans hopen)
      (full_startWaiting _ _) hkept
    exact ⟨hpass.trans hreach, hsettled⟩

theorem foldl_enqueue_kept (p : Pool) (new : List JobKind) :
    (new.foldl enqueue p).dropped = p.dropped ∧ (new.foldl enqueue p).stopped = p.stopped ∧
      (new.foldl enqueue p).running = p.running ∧ (new.foldl enqueue p).started = p.started ∧
      (new.foldl enqueue p).finished = p.finished := by
  induction new generalizing p with
  | nil => exact ⟨rfl, rfl, rfl, rfl, rfl⟩
  | cons k rest ih => exact ih (p.enqueue k)

/-- The pool after a request, once the workers have gone as far as they can. -/
def obey (p : Pool) : Request → Pool
  | .submit kinds => p.submit kinds
  | .openGate n => p.openGate n
  | .drop => p.drop

theorem Calm.submit {js : List Job} (h : Calm js p) (new : List JobKind) :
    Calm js (new.foldl enqueue p) := by
  induction new generalizing p with
  | nil => exact h
  | cons k rest ih => exact ih ⟨h.gated, h.pending, h.quiet⟩

/-- The jobs that the permits reach are all that wait at the gate, or the permits are used up. -/
theorem Calm.openGate (h : Calm [] p) (n : Nat) :
    Calm (p.running.take n)
      { p with permits := p.permits + (n - (p.running.take n).length) } := by
  refine ⟨h.gated, List.take_prefix n _, ?_⟩
  rcases Nat.le_total p.running.length n with hmany | hfew
  · exact .inr (List.take_of_length_le hmany).symm
  · refine h.quiet.imp (fun hnone => ?_) (fun hnone => ?_)
    · change p.permits + (n - (p.running.take n).length) = 0
      rw [hnone, List.length_take_of_le hfew, Nat.sub_self]
    · change p.running = p.running.take n
      rw [hnone, List.take_nil]

/-- A settled pool settles again after a request, by moves of its workers. -/
theorem reaches_obey (hsound : Sound size kinds p) (hsettled : p.isSettled = true) (r : Request) :
    Reaches (p.ask r) (p.obey r) ∧ (p.obey r).isSettled = true := by
  obtain ⟨hcalm, hfull⟩ := calm_of_isSettled hsettled
  cases r with
  | submit new =>
    change Reaches (new.foldl enqueue p) (p.submit new) ∧ (p.submit new).isSettled = true
    obtain ⟨hdropped, hstopped, -⟩ := foldl_enqueue_kept p new
    rw [Pool.submit, hdropped]
    rcases hfull with hstop | ⟨hopen, -⟩
    · rw [hsound.told hstop]
      exact ⟨.refl _, isSettled_of_calm (hcalm.submit new) (.inl (hstopped.trans hstop))⟩
    · rw [hopen]
      have hgoing : (new.foldl enqueue p).stopped = false := hstopped.trans (hsound.going hopen)
      refine ⟨Reaches.drain (k := 0) hgoing (hsound.submit new).apart,
        isSettled_of_calm ((hcalm.submit new).startWaiting _)
          (.inr ⟨?_, full_startWaiting _ _⟩)⟩
      exact (startWaiting_dropped _ _).1.trans (hdropped.trans hopen)
  | openGate n =>
    change Reaches { p with permits := p.permits + n } (p.openGate n) ∧
      (p.openGate n).isSettled = true
    have hpermits : p.permits + n =
        p.permits + (n - (p.running.take n).length) + (p.running.take n).length := by
      rw [Nat.add_assoc, Nat.sub_add_cancel (List.length_take_le n _)]
    rw [Pool.openGate, hpermits]
    rcases hfull with hstopped | ⟨hopen, hfull⟩
    · have hcalm' := hcalm.openGate n
      have hnone : p.running.take n = [] := by
        rw [hsound.idle hstopped, List.take_nil]
      rw [hnone] at hcalm' ⊢
      exact ⟨.refl _, isSettled_of_calm hcalm' (.inl hstopped)⟩
    · exact Reaches.foldl_pass (hcalm.openGate n) hopen hfull (hsound.setPermits _)
  | drop =>
    have hasked : p.ask .drop = p.drop := if_pos hsettled
    rw [hasked]
    exact ⟨.refl _, isSettled_drop p⟩

/-- The request, if the event is one. -/
def Event.request? : Event → Option Request
  | .asked r => some r
  | .moved _ => none

/-- Requests of which each waits until the pool has settled make a history. -/
theorem exists_run_of_requests (size : Nat) (requests : List Request) :
    ∃ events, events.filterMap Event.request? = requests ∧
      (new size).run? events = some (requests.foldl obey (new size)) ∧
      (requests.foldl obey (new size)).isSettled = true := by
  induction requests using List.reverseRecOn with
  | nil => exact ⟨[], rfl, rfl, rfl⟩
  | append_singleton rest r ih =>
    obtain ⟨events, rfl, hrun, hsettled⟩ := ih
    obtain ⟨⟨moves, hmoves⟩, hsettled'⟩ := reaches_obey (sound_of_run? hrun) hsettled r
    have hsilent : (moves.map Event.moved).filterMap Event.request? = [] := by
      rw [List.filterMap_map]
      exact List.filterMap_eq_nil_iff.mpr fun _ _ => rfl
    rw [List.foldl_append, List.foldl_cons, List.foldl_nil]
    refine ⟨events ++ .asked r :: moves.map .moved, ?_, ?_, hsettled'⟩
    · have hasked : Event.request? (.asked r) = some r := rfl
      rw [List.filterMap_append, List.filterMap_cons_some hasked, hsilent]
    · rw [run?_append, hrun, Option.bind_some, run?, after?, Option.bind_some, hmoves]

/-! ## What a pool shows of its jobs -/

/-- What a pool shows at any time: the jobs that have started are the first that were submitted, in
order and each once; the others are in the queue, which a dropped pool does not have; no worker has
two jobs; and a job is recorded once as finished, after it has started, and only if it does not
panic. -/
structure Orderly (size : Nat) (kinds : List JobKind) (p : Pool) : Prop where
  started : p.started = List.range p.started.length ∧ p.started.length ≤ kinds.length
  queued : p.queueLength? =
    if p.dropped then none else some (kinds.length - p.started.length)
  bounded : p.running.length ≤ max size 1
  once : p.finished.Nodup
  finished : ∀ i ∈ p.finished, i ∈ p.started ∧ ∃ k, kinds[i]? = some k ∧ k.panics = false

theorem Sound.orderly (h : Sound size kinds p) : Orderly size kinds p := by
  have hlength : p.started.length + p.waiting.items.length = kinds.length := by
    rw [← List.length_map (f := Job.id), ← List.length_append, h.order, List.length_range]
  refine ⟨⟨?_, by omega⟩, ?_, h.size ▸ h.bounded, h.once, fun i hi => ?_⟩
  · have hprefix : p.started <+: List.range kinds.length := ⟨_, h.order⟩
    rw [List.prefix_iff_eq_take.mp hprefix, List.take_range, List.length_range]
  · rw [queueLength?, Queue.size]
    congr 2
    omega
  · obtain ⟨hstarted, -, hkind⟩ := h.finished i hi
    exact ⟨hstarted, hkind⟩

/-- What a settled pool shows besides: no worker is idle while jobs wait in the queue; all jobs that
run were submitted to wait for a permit, and there is none; and of the other jobs that have started
those have finished that do not panic. -/
structure Busy (size : Nat) (kinds : List JobKind) (p : Pool) : Prop where
  full : p.dropped = false → p.waiting.items ≠ [] → p.running.length = max size 1
  gated : ∀ j ∈ p.running, kinds[j.id]? = some j.kind ∧ j.kind.gated = true ∧ p.permits = 0
  ended : p.dropped = false → ∀ i ∈ p.started, i ∉ p.running.map Job.id →
    (i ∈ p.finished ↔ ∃ k, kinds[i]? = some k ∧ k.panics = false)

theorem Sound.busy (h : Sound size kinds p) (hsettled : p.isSettled = true) :
    Busy size kinds p := by
  obtain ⟨hcalm, hfull⟩ := calm_of_isSettled hsettled
  refine ⟨fun hopen hwaiting => ?_, fun j hj => ?_, fun hopen i hi hfree => ?_⟩
  · have hgoing := h.going hopen
    have hsize := (hfull.resolve_left (by simp [hgoing])).2.resolve_left hwaiting
    rw [← h.size]
    exact Nat.le_antisymm h.bounded hsize
  · obtain ⟨-, k, hk, hpanics, hgated⟩ := h.running j hj
    have hgate := hcalm.gated j hj
    have hkind : k = j.kind := by
      cases k
      cases hj : j.kind
      simp_all
    exact ⟨hkind ▸ hk, hgate, hcalm.quiet.resolve_right (List.ne_nil_of_mem hj)⟩
  · refine ⟨fun hfinished => (h.finished i hfinished).2.2, fun ⟨k, hk, hpanics⟩ => ?_⟩
    by_contra hnot
    obtain ⟨k', hk', hpanics'⟩ := h.ended (h.going hopen) i hi hfree hnot
    rw [Option.some.inj (hk.symm.trans hk')] at hpanics
    rw [hpanics] at hpanics'
    cases hpanics'

/-- A job that panics leaves no record but frees its worker, who can take the next job at once. -/
theorem Sound.worker_of_panic (h : Sound size kinds p) (hj : j ∈ p.running)
    (hfree : j.kind.gated = false) (hpanics : j.kind.panics = true) :
    ∃ q, p.move? (.finish j.id) = some q ∧ q.started = p.started ∧ q.finished = p.finished ∧
      q.running.length + 1 = p.running.length ∧
      ∀ next rest, p.waiting.items = next :: rest →
        ∃ q', q.move? .take = some q' ∧ q'.started = p.started ++ [next.id] := by
  have hopen : p.stopped = false := by
    by_contra hstopped
    rw [h.idle (Bool.not_eq_false _ ▸ hstopped)] at hj
    cases hj
  obtain ⟨before, after, hrunning⟩ := List.append_of_mem hj
  have hlength : (before ++ after).length + 1 = p.running.length := by
    rw [hrunning]
    simp only [List.length_append, List.length_cons]
    omega
  have hfinish := finish?_of_running hrunning h.distinct hfree
  rw [finish, if_pos hpanics] at hfinish
  refine ⟨_, hfinish, rfl, rfl, hlength, fun next rest hwaiting => ?_⟩
  have hroom : (before ++ after).length < p.size := Nat.lt_of_lt_of_le (by omega) h.bounded
  refine ⟨{ p with
    waiting := ⟨rest⟩
    started := p.started ++ [next.id]
    running := before ++ after ++ [next] }, ?_, rfl⟩
  rw [move?, Pool.take?, Queue.pop?, hwaiting, hopen, decide_eq_true hroom]
  rfl

/-- Once all workers have stopped a pool can be asked, but nothing starts or finishes in it. -/
theorem kept_of_stopped (hstopped : p.stopped = true) (hidle : p.running = []) {e : Event}
    (hafter : p.after? e = some q) :
    q.stopped = true ∧ q.running = [] ∧ q.started = p.started ∧ q.finished = p.finished := by
  cases e with
  | asked r =>
    obtain rfl := Option.some.inj hafter
    cases r with
    | submit new =>
      obtain ⟨-, hstopped', hrunning, hended⟩ := foldl_enqueue_kept p new
      exact ⟨hstopped'.trans hstopped, hrunning.trans hidle, hended⟩
    | openGate n => exact ⟨hstopped, hidle, rfl, rfl⟩
    | drop =>
      rw [ask]
      split
      · exact ⟨rfl, rfl, rfl, rfl⟩
      · exact ⟨hstopped, hidle, rfl, rfl⟩
  -- A worker would have to go on, or to have a job already.
  | moved m =>
    cases m with
    | take =>
      obtain ⟨-, -, hopen, -⟩ := taken_of_take? hafter
      rw [hstopped] at hopen
      cases hopen
    | enter i =>
      obtain ⟨⟨j, hj, -⟩, -⟩ := entered_of_enter? hafter
      rw [hidle] at hj
      cases hj
    | finish i =>
      obtain ⟨j, hj, -⟩ := finished_of_finish? hafter
      rw [hidle] at hj
      cases hj
    | stop =>
      obtain ⟨-, rfl⟩ := dropped_of_stop? hafter
      exact ⟨rfl, rfl, rfl, rfl⟩

/-- Nothing more starts or finishes once all workers have stopped. -/
theorem ended_of_stopped (hstopped : p.stopped = true) (hidle : p.running = [])
    {events : List Event} (hrun : p.run? events = some q) :
    q.started = p.started ∧ q.finished = p.finished := by
  induction events generalizing p with
  | nil =>
    cases hrun
    exact ⟨rfl, rfl⟩
  | cons e rest ih =>
    obtain ⟨p₁, hafter, hrest⟩ := Option.bind_eq_some_iff.mp hrun
    obtain ⟨hstopped', hidle', hstarted, hfinished⟩ := kept_of_stopped hstopped hidle hafter
    rw [← hstarted, ← hfinished]
    exact ih hstopped' hidle' hrest

theorem stopped_of_isSettled (hdropped : p.dropped = true) (hsettled : p.isSettled = true) :
    p.stopped = true := by
  rcases (calm_of_isSettled hsettled).2 with hstopped | ⟨hopen, -⟩
  · exact hstopped
  · rw [hopen] at hdropped
    cases hdropped

/-- The workers of a dropped pool can stop, if they have not done so yet. -/
theorem Sound.exists_settled (h : Sound size kinds p) (hdropped : p.dropped = true) :
    ∃ q, Reaches p q ∧ q.isSettled = true := by
  by_cases hstopped : p.stopped = true
  · refine ⟨p, .refl p, isSettled_of_calm ?_ (.inl hstopped)⟩
    have hidle := h.idle hstopped
    exact ⟨fun j hj => absurd (hidle ▸ hj) List.not_mem_nil, List.nil_prefix, .inr hidle⟩
  · refine ⟨p.drop, .of_move (m := .stop) ?_, isSettled_drop p⟩
    rw [move?, stop?, hdropped, Bool.eq_false_iff.mpr hstopped]
    rfl

/-- Jobs run in the order of their submission, on all workers, and none once the pool is dropped,
whatever is asked of the pool at whatever time, and in whatever order its workers move.  A pool that
is dropped while workers move settles by itself, and nothing starts or finishes from then on; one
that was settled is still so, and nothing starts or finishes after the drop.  Requests that wait for
the pool to settle are such histories. -/
theorem jobs_run_in_order (size : Nat) :
    (∀ events p, (new size).run? events = some p →
      Orderly size (submissions events) p ∧
      (p.isSettled = true → Busy size (submissions events) p) ∧
      (∀ j ∈ p.running, j.kind.gated = false → j.kind.panics = true →
        ∃ q, p.move? (.finish j.id) = some q ∧ q.started = p.started ∧ q.finished = p.finished ∧
          q.running.length + 1 = p.running.length ∧
          ∀ next rest, p.waiting.items = next :: rest →
            ∃ q', q.move? .take = some q' ∧ q'.started = p.started ++ [next.id]) ∧
      (p.dropped = true → (∃ q, Reaches p q ∧ q.isSettled = true) ∧
        (p.isSettled = true → ∀ later q, p.run? later = some q →
          q.started = p.started ∧ q.finished = p.finished)) ∧
      (p.isSettled = true → (p.ask .drop).isSettled = true ∧ (p.ask .drop).dropped = true ∧
        ∀ later q, (p.ask .drop).run? later = some q →
          q.started = p.started ∧ q.finished = p.finished)) ∧
    ∀ requests : List Request, ∃ events, events.filterMap Event.request? = requests ∧
      (new size).run? events = some (requests.foldl obey (new size)) ∧
      (requests.foldl obey (new size)).isSettled = true := by
  refine ⟨fun events p hrun => ?_, exists_run_of_requests size⟩
  have hsound := sound_of_run? hrun
  refine ⟨hsound.orderly, hsound.busy, fun j hj => hsound.worker_of_panic hj,
    fun hdropped => ⟨hsound.exists_settled hdropped, fun hsettled later q hlater => ?_⟩,
    fun hsettled => ?_⟩
  · have hstopped := stopped_of_isSettled hdropped hsettled
    exact ended_of_stopped hstopped (hsound.idle hstopped) hlater
  · rw [ask, if_pos hsettled]
    exact ⟨isSettled_drop p, rfl,
      fun later q hlater => ended_of_stopped (p := p.drop) rfl rfl hlater⟩

/-- Jobs for two workers: the first panics, and the next two wait at the gate. -/
def sampleJobs : List JobKind :=
  [⟨false, true⟩, ⟨true, false⟩, ⟨true, true⟩, ⟨false, false⟩]

def sampleMoves : List Event :=
  [.asked (.submit sampleJobs), .moved .take, .moved .take, .moved (.finish 0), .moved .take]

/-- The pool is dropped while a worker has the first job, and this worker goes on to the next. -/
def sampleDrop : List Event :=
  [.asked (.submit sampleJobs), .moved .take, .asked .drop, .moved (.finish 0), .moved .take,
    .moved .stop]

theorem jobs_run_in_order_sample :
    (∃ p, (new 2).run? sampleMoves = some p ∧ p.isSettled = true ∧ p.started = [0, 1, 2] ∧
      p.queueLength? = some 1 ∧ Orderly 2 (submissions sampleMoves) p ∧
      Busy 2 (submissions sampleMoves) p) ∧
    ∃ p, (new 2).run? sampleDrop = some p ∧ p.isSettled = true ∧ p.started = [0, 1] ∧
      ∀ later q, p.run? later = some q → q.started = p.started ∧ q.finished = p.finished := by
  constructor
  · have hshown : ((new 2).run? sampleMoves).map
        (fun p => (p.isSettled, p.started, p.queueLength?)) = some (true, [0, 1, 2], some 1) := by
      decide
    obtain ⟨p, hrun, hp⟩ := Option.map_eq_some_iff.mp hshown
    simp only [Prod.mk.injEq] at hp
    obtain ⟨horderly, hbusy, -⟩ := (jobs_run_in_order 2).1 sampleMoves p hrun
    exact ⟨p, hrun, hp.1, hp.2.1, hp.2.2, horderly, hbusy hp.1⟩
  · have hshown : ((new 2).run? sampleDrop).map
        (fun p => (p.isSettled, p.started, p.dropped)) = some (true, [0, 1], true) := by
      decide
    obtain ⟨p, hrun, hp⟩ := Option.map_eq_some_iff.mp hshown
    simp only [Prod.mk.injEq] at hp
    obtain ⟨-, -, -, hdropped, -⟩ := (jobs_run_in_order 2).1 sampleDrop p hrun
    exact ⟨p, hrun, hp.1, hp.2.1, (hdropped hp.2.2).2 hp.1⟩

end Pool
end SeriesExec
