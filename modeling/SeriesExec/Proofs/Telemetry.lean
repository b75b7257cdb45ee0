import SeriesExec.Proofs.Convergence
import SeriesExec.Proofs.Noninterference
import SeriesExec.Proofs.Tallies

/-!
# Telemetry — monitors only watch

The monitors are told about an executed task once for each call of a driver that has come back, and
about nothing else.  What they do is not seen by anything else.  This file defines:

* `Cluster.filing?` — what the executions of a task are counted under;
* `Cluster.executions` — how many calls that are counted there have come back;
* `Cluster.taken` — the tallies that are handed out in a history;
* `Cluster.elapsed` — the time of all calls that come back in a history;
* `Cluster.unobserved` — the cluster without monitors, and with an empty ledger.

Main statement: the counts are those of the executions, and monitors change nothing but the ledger
(`monitors_only_watch`).
-/

namespace SeriesExec

open Traffic

namespace Cluster

variable {c c' : Cluster} {s : Setup} {e : Event} {events : List Event} {key : Fragment.Key}
  {kind : OperatorKind}

/-! ## What changes the ledger -/

/-- Under a cover that fixes the ledger, a cluster is what it was if it has that ledger. -/
theorem ledger_of_cover {l : Ledger} (h : c = c.cover id id id fun _ => l) : c.ledger = l :=
  (congrArg ledger h).trans rfl

/-- No request but the one that takes it touches the ledger. -/
theorem ledger_handle [PatternLibrary] {r : Request} (hr : r ≠ .takeStats) :
    (c.handle r).1.ledger = c.ledger :=
  ledger_of_cover (congrArg Prod.fst (handle_aside (m := id) (w := fun _ => c.ledger) c hr))

/-- No move but the end of a call touches the ledger. -/
theorem ledger_step? [PatternLibrary] {m : Step} (hm : m.isComplete = false)
    (h : c.step? m = some c') : c'.ledger = c.ledger := by
  have hcover : c.step? m = (c.step? m).map (cover id id id fun _ => c.ledger) :=
    step?_cover (c := c) (b := id) (g := id) (m := id) (w := fun _ => c.ledger) (fun _ => rfl)
      fun hcomplete => absurd hcomplete (Bool.eq_false_iff.mp hm)
  rw [h] at hcover
  exact ledger_of_cover (Option.some.inj hcover)

theorem ledger_settleTask (c : Cluster) (t : TaskId) (r : TaskResult) :
    (c.settleTask t r).ledger = c.ledger :=
  ledger_of_cover (settleTask_cover (b := id) (g := id) (m := id) (w := fun _ => c.ledger) c t r)

theorem ledger_broadcast (c : Cluster) (t : TaskId) : (c.broadcast t).ledger = c.ledger :=
  ledger_of_cover (broadcast_cover (b := id) (g := id) (m := id) (w := fun _ => c.ledger) c t)

/-- Nothing touches the monitors. -/
theorem monitors_after? [PatternLibrary] (hafter : c.after? e = some c') :
    c'.monitors = c.monitors := by
  cases e with
  | asked r =>
    cases hafter
    by_cases hr : r = .takeStats
    · rw [hr]
      rfl
    · have hcover := handle_aside (m := fun _ => c.monitors) (w := id) c hr
      exact congrArg (fun p => p.1.monitors) hcover
  | moved m => exact congrArg Setting.monitors (setting_step? hafter)

theorem ledger_completion {r : Run} {elapsed : Duration} (hc : c.Completion r elapsed c')
    {x : Task} {shape : StorageShape} (hx : c.task? r.delivery.task = some x)
    (hshape : x.storage? = some shape) :
    c'.ledger =
      tellAll r.delivery.task shape.fragment.key x.firstKind? elapsed c.monitors c.ledger := by
  have hclose : (c.close r elapsed).ledger =
      tellAll r.delivery.task shape.fragment.key x.firstKind? elapsed c.monitors c.ledger := by
    have hfreed : ({ c with
        running := c.running.filter fun q => q.delivery.id != r.delivery.id } : Cluster).task?
          r.delivery.task = some x := hx
    change (settleTask _ r.delivery.task r.outcome.result).ledger = _
    rw [ledger_settleTask]
    change (observe _ r.delivery.task elapsed).ledger = _
    rw [observe, hfreed]
    dsimp only
    rw [hshape]
  rw [hc.after]
  split
  · exact (ledger_broadcast _ _).trans hclose
  · exact hclose

/-! ## Executions -/

/-- What the executions of a task are counted under: the paths and the times of its fragment, and
the kind of its first operator. -/
def filing? (c : Cluster) (t : TaskId) : Option ((PathRange × KeyInterval) × Option OperatorKind) :=
  (c.task? t).bind fun x => x.fragment?.map fun f =>
    ((f.range, f.keys), x.operators.head?.map Operator.kind)

/-- How many calls of drivers have come back for tasks with this key and first kind. -/
def executions (c : Cluster) (key : Fragment.Key) (kind : OperatorKind) : Nat :=
  c.traffic.executed.countP fun p => c.filing? p.1.task == some (key, some kind)

/-- The tallies that are handed out at an event. -/
def takenBy (c : Cluster) : Event → List (List (Fragment.Key × KindTallies))
  | .asked .takeStats => [c.ledger.take.2]
  | _ => []

/-- The tallies that are handed out in a history, those of each taking by themselves. -/
def taken [PatternLibrary] (c : Cluster) (events : List Event) : List
    (List (Fragment.Key × KindTallies)) :=
  c.trace takenBy events

/-- The nanoseconds that the call takes which comes back with an event. -/
def Event.elapsed : Event → Nat
  | .moved (.complete _ elapsed) => elapsed.nanos
  | _ => 0

/-- The nanoseconds that all calls take which come back in a history. -/
def elapsed (events : List Event) : Nat :=
  totalOf Event.elapsed events

/-- The count at a key and a kind among tallies. -/
def countIn (key : Fragment.Key) (kind : OperatorKind)
    (tallies : List (Fragment.Key × KindTallies)) : Nat :=
  Ledger.countOf kind ((KeyedList.find? key tallies).getD [])

theorem filing?_eq {t : TaskId} {x : Task} {shape : StorageShape} (hx : c.task? t = some x)
    (hshape : x.storage? = some shape) :
    c.filing? t = some (shape.fragment.key, x.firstKind?) := by
  rw [filing?, hx, Option.bind_some, Task.fragment?, hshape, Option.map_some, Option.map_some,
    ← Fragment.key_eq, ← Task.firstKind?]

theorem filing?_of_later (h : c.roster.Later c'.roster) {t : TaskId} {x : Task}
    (hx : c.task? t = some x) : c'.filing? t = c.filing? t := by
  obtain ⟨y, hy, hlater⟩ := later_task? h hx
  have hfragment : y.fragment? = x.fragment? := by
    rw [← Task.fragment?_core y, hlater.fragment?_eq, Task.fragment?_core]
  have hoperators : y.operators = x.operators := hlater.operators_eq
  rw [filing?, filing?, hx, hy, Option.bind_some, Option.bind_some, hfragment, hoperators]

/-- What has come back is counted as before, and what comes back is counted as well. -/
theorem executions_eq (h : c.Coherent) (hlater : c.roster.Later c'.roster)
    {new : List (Delivery × TaskResult)}
    (hexecuted : c'.traffic.executed = c.traffic.executed ++ new) :
    c'.executions key kind = c.executions key kind +
      new.countP fun p => c'.filing? p.1.task == some (key, some kind) := by
  rw [executions, hexecuted, List.countP_append, executions]
  congr 1
  refine List.countP_congr fun p hp => ?_
  have hserved : p ∈ c.traffic.served := List.mem_append_left _ hp
  obtain ⟨x, hx, -⟩ := h.storage p.1 (mem_deliveries_of_served hserved)
  rw [filing?_of_later hlater hx]

theorem executed_handle [PatternLibrary] (h : c.Coherent) (r : Request) :
    (c.handle r).1.traffic.executed = c.traffic.executed := by
  obtain ⟨new, haccepts, -⟩ := accepts_handle h.sound.orderly r
  exact executed_congr haccepts.finished

/-- An event takes the ledger, or ends a call and has the monitors told of it, or has nothing to do
with ledger and calls. -/
inductive Watched (c c' : Cluster) : Event → Prop where
  | take (hledger : c'.ledger = c.ledger.take.1)
      (hexecuted : c'.traffic.executed = c.traffic.executed) : Watched c c' (.asked .takeStats)
  | complete (id : Nat) (elapsed : Duration) (r : Run) (key : Fragment.Key)
      (first : Option OperatorKind) (hfiling : c.filing? r.delivery.task = some (key, first))
      (hledger : c'.ledger =
        tellAll r.delivery.task key first elapsed c.monitors c.ledger)
      (hexecuted : c'.traffic.executed =
        c.traffic.executed ++ [(r.delivery, r.outcome.result)]) :
      Watched c c' (.moved (.complete id elapsed))
  | other (e : Event) (htaken : c.takenBy e = []) (helapsed : e.elapsed = 0)
      (hledger : c'.ledger = c.ledger)
      (hexecuted : c'.traffic.executed = c.traffic.executed) : Watched c c' e

theorem watched_of_after? [PatternLibrary] (h : c.Coherent) (hafter : c.after? e = some c') :
    Watched c c' e := by
  cases e with
  | asked r =>
    cases hafter
    by_cases hr : r = .takeStats
    · subst hr
      exact .take rfl (executed_handle h .takeStats)
    · refine .other _ ?_ rfl (ledger_handle hr) (executed_handle h r)
      cases r <;> first | rfl | exact absurd rfl hr
  | moved m =>
    have hstep : c.step? m = some c' := hafter
    cases hm : m.isComplete with
    | false =>
      have hnot : ∀ id elapsed, m ≠ .complete id elapsed := by
        rintro id elapsed rfl
        cases hm
      refine .other _ rfl ?_ (ledger_step? hm hstep) (executed_of_move? h hnot hstep)
      cases m <;> first | rfl | cases hm
    | true =>
      cases m with
      | complete id elapsed =>
        obtain ⟨r, -, hc⟩ := completion_of_complete? hstep
        obtain ⟨-, x, shape, hx, hshape⟩ := exists_storage_of_completion h hc
        refine .complete id elapsed r _ _ (filing?_eq hx hshape) (ledger_completion hc hx hshape) ?_
        rw [executed, show c'.traffic.finished = _ from finished_of_completion hc,
          List.filter_append, List.map_append]
        rfl
      | _ => cases hm

/-- How often the monitors have the ledger count each task. -/
def tellers (c : Cluster) : Nat :=
  c.monitors.countP Monitor.isCounting

/-- What is handed out at an event and what the ledger then shows is what it has shown, and one for
each monitor that counts if a call comes back. -/
theorem Watched.counts (hwatched : Watched c c' e) (h : c.Coherent)
    (hlater : c.roster.Later c'.roster) (hordered : c.ledger.Ordered)
    (hkept : c'.ledger ≠ .spoiled) (key : Fragment.Key) (kind : OperatorKind) :
    totalOf (countIn key kind) (c.takenBy e) + Ledger.countOf kind (c'.ledger.stats key) +
        c.tellers * c.executions key kind =
      Ledger.countOf kind (c.ledger.stats key) + c.tellers * c'.executions key kind := by
  cases hwatched with
  | take hledger hexecuted =>
    have hsame : c'.executions key kind = c.executions key kind := by
      simpa using executions_eq h hlater (hexecuted.trans (List.append_nil _).symm)
    rw [hsame]
    cases hc : c.ledger with
    | spoiled =>
      rw [hc] at hledger
      exact absurd hledger hkept
    | counting entries =>
      rw [hc] at hledger
      rw [hledger, takenBy, hc]
      simp [countIn, Ledger.take, Ledger.stats, KeyedList.find?, Ledger.countOf]
  | complete id elapsed r key' first hfiling hledger hexecuted =>
    rw [hledger] at hkept
    -- The call that has come back is filed under one key and kind only.
    have hone : ([(r.delivery, r.outcome.result)].countP fun p =>
        c'.filing? p.1.task == some (key, some kind)) =
        if key = key' ∧ first = some kind then 1 else 0 := by
      obtain ⟨x, hx, -⟩ := Option.bind_eq_some_iff.mp hfiling
      rw [List.countP_singleton, filing?_of_later hlater hx, hfiling]
      simp only [beq_iff_eq, Option.some.injEq, Prod.mk.injEq, @eq_comm _ key' key]
    rw [executions_eq h hlater hexecuted, hone, hledger, countOf_tellAll _ _ hordered hkept,
      tellers, Nat.mul_add]
    change 0 + _ + _ = _
    omega
  | other e htaken _ hledger hexecuted =>
    have hsame : c'.executions key kind = c.executions key kind := by
      simpa using executions_eq h hlater (hexecuted.trans (List.append_nil _).symm)
    rw [htaken, hledger, hsame]
    simp

theorem Watched.kept (hwatched : Watched c c' e) (hkept : c'.ledger ≠ .spoiled) :
    c.ledger ≠ .spoiled := by
  intro hspoiled
  refine hkept ?_
  cases hwatched with
  | take hledger _ => rw [hledger, hspoiled, Ledger.take]
  | complete _ _ _ _ _ _ hledger _ => rw [hledger, hspoiled, tellAll_spoiled]
  | other _ _ _ hledger _ => rw [hledger, hspoiled]

theorem Watched.ordered (hwatched : Watched c c' e) (h : c.ledger.Ordered) :
    c'.ledger.Ordered := by
  cases hwatched with
  | take hledger _ =>
    rw [hledger]
    cases c.ledger with
    | spoiled => trivial
    | counting entries => exact List.Pairwise.nil
  | complete _ _ _ _ _ _ hledger _ => exact hledger ▸ ordered_tellAll _ _ h
  | other _ _ _ hledger _ => exact hledger ▸ h

theorem Watched.short (hwatched : Watched c c' e) (hordered : c.ledger.Ordered) {n : Nat}
    (h : c.ledger.Short n) (hroom : n + c.tellers * e.elapsed < UInt64.size * 1000000000) :
    c'.ledger.Short (n + c.tellers * e.elapsed) := by
  cases hwatched with
  | take hledger _ =>
    rw [hledger]
    cases hc : c.ledger with
    | spoiled => exact (hc ▸ h : Ledger.Short n .spoiled)
    | counting entries => exact fun _ _ => Nat.zero_le _
  | complete _ _ _ _ _ _ hledger _ => exact hledger ▸ short_tellAll _ _ hordered h hroom
  | other _ _ helapsed hledger _ =>
    rw [helapsed, Nat.mul_zero, Nat.add_zero, hledger]
    exact h

/-! ## Histories -/

/-- What is handed out in a history and what the ledger then shows is one for each execution and
each monitor that counts, unless a sum has become too long. -/
theorem counts_of_run? [PatternLibrary] (h : c.Coherent) (hordered : c.ledger.Ordered)
    (hrun : c.run? events = some c') (hkept : c'.ledger ≠ .spoiled) (key : Fragment.Key)
    (kind : OperatorKind) :
    c.ledger ≠ .spoiled ∧
      totalOf (countIn key kind) (c.taken events) + Ledger.countOf kind (c'.ledger.stats key) +
          c.tellers * c.executions key kind =
        Ledger.countOf kind (c.ledger.stats key) + c.tellers * c'.executions key kind := by
  induction events generalizing c with
  | nil =>
    cases hrun
    exact ⟨hkept, by rw [taken, trace, totalOf_nil, Nat.zero_add]⟩
  | cons e rest ih =>
    obtain ⟨c₁, hafter, hrest⟩ := Option.bind_eq_some_iff.mp hrun
    have hwatched := watched_of_after? h hafter
    obtain ⟨hkept₁, hcounts⟩ := ih (h.after? hafter) (hwatched.ordered hordered) hrest
    have hone := hwatched.counts h (later_of_after? h hafter) hordered hkept₁ key kind
    have htellers : c₁.tellers = c.tellers := by
      rw [tellers, monitors_after? hafter, tellers]
    rw [htellers] at hcounts
    rw [taken, trace_cons _ hafter, totalOf_append]
    refine ⟨hwatched.kept hkept₁, ?_⟩
    change _ + totalOf (countIn key kind) (c₁.taken rest) + _ + _ = _
    omega

/-- No sum becomes too long if all calls together do not take that long. -/
theorem short_of_run? [PatternLibrary] (h : c.Coherent) (hordered : c.ledger.Ordered) {n : Nat}
    (hshort : c.ledger.Short n) (hrun : c.run? events = some c')
    (hroom : n + c.tellers * elapsed events < UInt64.size * 1000000000) :
    c'.ledger.Short (n + c.tellers * elapsed events) := by
  induction events generalizing c n with
  | nil =>
    cases hrun
    exact hshort
  | cons e rest ih =>
    obtain ⟨c₁, hafter, hrest⟩ := Option.bind_eq_some_iff.mp hrun
    have hwatched := watched_of_after? h hafter
    have htellers : c₁.tellers = c.tellers := by
      rw [tellers, monitors_after? hafter, tellers]
    have hsum : elapsed (e :: rest) = e.elapsed + elapsed rest := totalOf_cons ..
    rw [hsum, Nat.mul_add, ← Nat.add_assoc] at hroom ⊢
    rw [← htellers] at hroom ⊢
    have hone := hwatched.short hordered hshort
      (Nat.lt_of_le_of_lt (Nat.le_add_right _ _) (htellers ▸ hroom))
    exact ih (h.after? hafter) (hwatched.ordered hordered) (htellers.symm ▸ hone) hrest hroom

/-! ## Without monitors -/

/-- The cluster without monitors, and with an empty ledger. -/
def unobserved (c : Cluster) : Cluster :=
  c.cover id id (fun _ => []) fun _ => Ledger.empty

theorem after?_unobserved [PatternLibrary] (c : Cluster) (e : Event) :
    c.unobserved.after? e = (c.after? e).map unobserved := by
  cases e with
  | asked r =>
    by_cases hr : r = .takeStats
    · rw [hr]
      rfl
    · exact congrArg (fun p => some p.1) (handle_aside c hr)
  | moved m => exact step?_cover (fun _ => rfl) fun _ _ _ _ _ _ _ => rfl

/-- Without monitors the same happens. -/
theorem run?_unobserved [PatternLibrary] (c : Cluster) (events : List Event) :
    c.unobserved.run? events = (c.run? events).map unobserved := by
  induction events generalizing c with
  | nil => rfl
  | cons e rest ih =>
    rw [run?, run?, after?_unobserved]
    cases c.after? e with
    | none => rfl
    | some c₁ => exact ih c₁

/-- A new cluster with other monitors is the same but for them. -/
theorem build_aside (s : Setup) {m : List Monitor → List Monitor} {w : Ledger → Ledger}
    (hw : w Ledger.empty = Ledger.empty) :
    build { s with monitors := m s.monitors } = (build s).cover id id m w := by
  have hblank : blank { s with monitors := m s.monitors } = (blank s).cover id id m w := by
    unfold blank cover
    rw [hw]
    rfl
  have hseed : ∀ (c : Cluster) (e : StorageEngine),
      (c.cover id id m w).seedEngine e = (c.seedEngine e).cover id id m w := fun c e => by
    rw [seedEngine, seedEngine, addEngine_aside]
    cases c.addEngine e <;> rfl
  have hseeded : ((s.engines.map Prod.fst).foldl seedEngine
      (blank { s with monitors := m s.monitors })) =
      ((s.engines.map Prod.fst).foldl seedEngine (blank s)).cover id id m w := by
    rw [hblank]
    exact List.foldl_hom (cover id id m w) hseed
  have hready : ∀ (es : List StorageEngine) (c : Cluster),
      es.foldl tryEngine (c.cover id id m w) = (es.foldl tryEngine c).cover id id m w :=
    fun _ _ => List.foldl_hom (cover id id m w) tryEngine_cover
  have hlearnt : ∀ (us : List StorageUnit) (c : Cluster),
      us.foldl learnUnit (c.cover id id m w) = (us.foldl learnUnit c).cover id id m w :=
    fun _ _ => List.foldl_hom (cover id id m w) learnUnit_aside
  unfold build
  dsimp only
  rw [hseeded, hready, ← hlearnt]
  rfl

theorem ledger_build (s : Setup) : (build s).ledger = Ledger.empty :=
  ledger_of_cover (build_aside s (m := id) (w := fun _ => Ledger.empty) rfl)

theorem monitors_build (s : Setup) : (build s).monitors = s.monitors :=
  (congrArg monitors (build_aside s (m := fun _ => s.monitors) (w := id) rfl)).trans rfl

theorem monitors_run? [PatternLibrary] (hrun : c.run? events = some c') :
    c'.monitors = c.monitors :=
  run?_induction (P := fun c' => c'.monitors = c.monitors) (A := fun _ => True)
    (fun _ h hafter => (monitors_after? hafter).trans h) (fun _ _ => trivial) rfl hrun

/-- With other monitors the same history can happen.  It leaves the same cluster but for monitors
and ledger, and the same answers to all requests but for the one that takes the ledger. -/
theorem run?_of_monitors [PatternLibrary] (hrun : (build s).run? events = some c)
    (monitors : List Monitor) :
    ∃ c', (build { s with monitors := monitors }).run? events = some c' ∧
      c' = { c with monitors := monitors, ledger := c'.ledger } ∧
      ∀ r, r ≠ .takeStats → (c'.handle r).2 = (c.handle r).2 := by
  have hbuild : (build { s with monitors := monitors }).unobserved = (build s).unobserved :=
    (congrArg unobserved (build_aside s (m := fun _ => monitors) (w := id) rfl)).trans rfl
  have hmap : ((build { s with monitors := monitors }).run? events).map unobserved =
      some c.unobserved := by
    rw [← run?_unobserved, hbuild, run?_unobserved, hrun, Option.map_some]
  obtain ⟨c', hrun', hsame⟩ := Option.map_eq_some_iff.mp hmap
  have hmonitors : c'.monitors = monitors := (monitors_run? hrun').trans (monitors_build _)
  refine ⟨c', hrun', ?_, fun r hr => ?_⟩
  · let back := cover id id (fun _ => c'.monitors) fun _ => c'.ledger
    have hback : back c'.unobserved = back c.unobserved := congrArg back hsame
    change c' = { c with monitors := c'.monitors, ledger := c'.ledger } at hback
    rwa [hmonitors] at hback
  · have hreply : ∀ c : Cluster, (c.unobserved.handle r).2 = (c.handle r).2 := fun c =>
      (congrArg Prod.snd (handle_aside c hr)).trans rfl
    rw [← hreply, hsame, hreply]

/-- Monitors count what is executed, and change nothing but their ledger:

* what has been handed out for paths, times and a kind, and what the ledger shows, is one for each
  call of a driver that has come back for a task on a fragment with these paths and times whose
  first operator is of this kind, and each monitor that counts, unless a sum has become too long;
* no sum becomes too long if all calls together do not take that long;
* the calls of drivers are those that have come back and those that workers are busy with;
* with any other monitors, which may fail or panic at any task, the same history can happen.  It
  leaves the same tasks, queues, workers and results, and the same answers to all requests but for
  the one that takes the ledger. -/
theorem monitors_only_watch [PatternLibrary] (s : Setup) {events : List Event} {c : Cluster}
    (hrun : (build s).run? events = some c) :
    (c.ledger ≠ .spoiled → ∀ range keys kind,
      totalOf (countIn (range, keys) kind) ((build s).taken events) +
          Ledger.countOf kind (c.ledger.stats (range, keys)) =
        s.monitors.countP Monitor.isCounting * c.executions (range, keys) kind) ∧
    (s.monitors.countP Monitor.isCounting * elapsed events < UInt64.size * 1000000000 →
      c.ledger ≠ .spoiled) ∧
    ((build s).calls events).Perm
      (c.running.map Run.delivery ++ c.traffic.executed.map Prod.fst) ∧
    ∀ monitors, ∃ c', (build { s with monitors := monitors }).run? events = some c' ∧
      c' = { c with monitors := monitors, ledger := c'.ledger } ∧
      ∀ r, r ≠ .takeStats → (c'.handle r).2 = (c.handle r).2 := by
  -- Counts and lengths are kept event by event from a ledger that is empty at the start.
  have hcoherent := coherent_build s
  have hordered : (build s).ledger.Ordered := by
    rw [ledger_build]
    exact List.Pairwise.nil
  have htellers : (build s).tellers = s.monitors.countP Monitor.isCounting := by
    rw [tellers, monitors_build]
  refine ⟨fun hkept range keys kind => ?_, fun hroom hspoiled => ?_, ?_, run?_of_monitors hrun⟩
  · have hcounts := (counts_of_run? hcoherent hordered hrun hkept (range, keys) kind).2
    have hnone : (build s).executions (range, keys) kind = 0 := by
      rw [executions, executed, show (build s).traffic.finished = [] from finished_build s]
      rfl
    have hshown : Ledger.countOf kind ((build s).ledger.stats (range, keys)) = 0 := by
      rw [ledger_build]
      rfl
    rwa [hnone, hshown, htellers, Nat.mul_zero, Nat.add_zero, Nat.zero_add] at hcounts
  · have hshort : (build s).ledger.Short 0 := by
      rw [ledger_build]
      exact fun _ _ => Nat.zero_le _
    rw [← htellers] at hroom
    have hshort' := short_of_run? hcoherent hordered hshort hrun (by rwa [Nat.zero_add])
    rw [hspoiled] at hshort'
    exact hshort'
  · have hmap : c.traffic.executed.map Prod.fst =
        (c.finished.filter fun e => e.fate == .executed).map Ending.delivery := by
      rw [executed, List.map_map]
      rfl
    rw [hmap]
    exact (calls_of_run? hrun).1

/-- The node with an engine of two workers, and three monitors of which one counts. -/
def watchedSetup : Setup :=
  { sampleSetup with monitors := [.failing, .counting, .crashing] }

/-- The series of `sampleFragment` at other times. -/
def laterFragment : Fragment :=
  { sampleFragment with keys := ⟨0, 10⟩ }

/-- A read panics, the ledger is taken, and an insertion into another fragment ends. -/
def watchedEvents : List Event :=
  [.asked (.notifyUnit none (some (StorageUnit.newMaster "unit" 1))),
    .asked (.newStorage [.project ["*"]] sampleFragment true false none),
    .asked (.newStorage [.insert Store.sampleBatch] laterFragment true false none),
    .asked (.commitAll [0, 1]), .moved (.resolve "unit"), .moved (.dispatch "unit"),
    .moved (.dispatch "unit"), .moved (.start 1), .moved (.start 1),
    .moved (.complete 0 (.ofMillis 2)), .asked .takeStats, .asked (.openGate "outside" 1),
    .moved (.complete 1 (.ofMillis 3))]

theorem monitors_only_watch_sample : ∃ c, (build watchedSetup).run? watchedEvents = some c ∧
    totalOf (countIn (.interval none none, KeyInterval.all) .project)
        ((build watchedSetup).taken watchedEvents) +
      Ledger.countOf .project (c.ledger.stats (.interval none none, KeyInterval.all)) = 1 ∧
    totalOf (countIn (.interval none none, ⟨0, 10⟩) .insert)
        ((build watchedSetup).taken watchedEvents) +
      Ledger.countOf .insert (c.ledger.stats (.interval none none, ⟨0, 10⟩)) = 1 ∧
    totalOf (countIn (.interval none none, ⟨0, 10⟩) .project)
        ((build watchedSetup).taken watchedEvents) +
      Ledger.countOf .project (c.ledger.stats (.interval none none, ⟨0, 10⟩)) = 0 ∧
    ∃ c', (build sampleSetup).run? watchedEvents = some c' ∧ c'.tasks.length = c.tasks.length ∧
      c'.ledger = Ledger.empty := by
  obtain ⟨c, hrun, hread, hinsert, hother⟩ :
      ∃ c ∈ (build watchedSetup).run? watchedEvents,
        c.executions (.interval none none, KeyInterval.all) .project = 1 ∧
        c.executions (.interval none none, ⟨0, 10⟩) .insert = 1 ∧
        c.executions (.interval none none, ⟨0, 10⟩) .project = 0 := by
    decide
  obtain ⟨hcounts, hshort, -, hsame⟩ := monitors_only_watch watchedSetup hrun
  have hcounted := hcounts (hshort (by decide)) (.interval none none)
  obtain ⟨c', hrun', heq, -⟩ := hsame []
  have hempty : ((build sampleSetup).run? watchedEvents).map ledger = some Ledger.empty := by decide
  rw [show (build sampleSetup).run? watchedEvents = some c' from hrun'] at hempty
  refine ⟨c, hrun, ?_, ?_, ?_, c', hrun', by rw [heq], Option.some.inj hempty⟩
  · rw [hcounted, hread]
    rfl
  · rw [hcounted, hinsert]
    rfl
  · rw [hcounted, hother]
    rfl

end Cluster
end SeriesExec
