import SeriesExec.Proofs.Steps

/-!
# Noninterference — what hardly anything looks at

Only the loops of the units look at the mark that they are off, nothing but the hooks look at the
notices, and nothing but the end of a call looks at the monitors and their ledger.  So everything
else does what it does whatever these are.  This file defines:

* `Cluster.cover` — the cluster with another such mark, other notices, other monitors and another
  ledger;
* `Cluster.veil` — the cluster with another such mark and other notices;
* `Cluster.Blind` — other monitors make of the other ledger what the monitors make of the ledger;
* `Cluster.Request.meetsHooks` — the requests that have to do with hooks;
* `Cluster.quiet` — the cluster without its notices.

Main statements: `cover` and `veil` change places with moves (`step?_cover`, `step?_veil`) and with
requests (`handle_cover`, `handle_veil`), monitors and ledger do so even with what calls hooks
(`handle_aside`), and notices make no difference to a history (`run?_quiet`).
-/

namespace SeriesExec
namespace Cluster

variable {c : Cluster} {b : Bool → Bool} {g : List Notice → List Notice}
  {m : List Monitor → List Monitor} {w : Ledger → Ledger}

/-- The cluster with other notices, and another mark whether its loops are off. -/
def veil (b : Bool → Bool) (g : List Notice → List Notice) (c : Cluster) : Cluster :=
  { c with isClosed := b c.isClosed, notices := g c.notices }

/-- The cluster under a veil, with other monitors and another ledger besides. -/
def cover (b : Bool → Bool) (g : List Notice → List Notice) (m : List Monitor → List Monitor)
    (w : Ledger → Ledger) (c : Cluster) : Cluster :=
  { c with
    isClosed := b c.isClosed
    notices := g c.notices
    monitors := m c.monitors
    ledger := w c.ledger }

/-- The other monitors do to the other ledger what the monitors do to the ledger. -/
def Blind (m : List Monitor → List Monitor) (w : Ledger → Ledger) : Prop :=
  ∀ t key first span monitors l,
    tellAll t key first span (m monitors) (w l) = w (tellAll t key first span monitors l)

/-! ## Tasks -/

theorem parentRows_cover (c : Cluster) (ps : List TaskId) :
    (c.cover b g m w).parentRows ps = c.parentRows ps := by
  induction ps with
  | nil => rfl
  | cons p rest ih =>
    rw [parentRows, parentRows, ih]
    rfl

theorem memoryResult_cover [PatternLibrary] (c : Cluster) (x : Task) :
    (c.cover b g m w).memoryResult x = c.memoryResult x := by
  simp only [memoryResult, parentRows_cover]

theorem executeMemory_cover [PatternLibrary] (c : Cluster) (t : TaskId) :
    (c.cover b g m w).executeMemory t =
      ((c.executeMemory t).1.cover b g m w, (c.executeMemory t).2) := by
  have htask : (c.cover b g m w).task? t = c.task? t := rfl
  rw [executeMemory, executeMemory, htask]
  cases c.task? t with
  | none => rfl
  | some x => exact Prod.ext rfl (memoryResult_cover c x)

theorem release_cover (c : Cluster) (t : TaskId) :
    (c.cover b g m w).release t = ((c.release t).1.cover b g m w, (c.release t).2) := by
  have htask : (c.cover b g m w).task? t = c.task? t := rfl
  rw [release, release, htask]
  cases (c.task? t).bind Task.follower <;> rfl

theorem settleTask_cover (c : Cluster) (t : TaskId) (r : TaskResult) :
    (c.cover b g m w).settleTask t r = (c.settleTask t r).cover b g m w := by
  have hset : ((c.cover b g m w).modifyTask t fun x => x.setResult r) =
    (c.modifyTask t fun x => x.setResult r).cover b g m w := rfl
  rw [settleTask, settleTask, hset]
  generalize (c.modifyTask t fun x => x.setResult r) = c₁
  have htask : (c₁.cover b g m w).task? t = c₁.task? t := rfl
  rw [release_cover, htask, apply_ite (cover b g m w)]
  refine ite_congr rfl (fun _ => ?_) fun _ => rfl
  rcases c₁.release t with ⟨c₂, _ | f⟩ <;> rfl

theorem observe_cover (hblind : Blind m w) (c : Cluster) (t : TaskId) (span : Duration) :
    (c.cover b g m w).observe t span = (c.observe t span).cover b g m w := by
  have htask : (c.cover b g m w).task? t = c.task? t := rfl
  rw [observe, observe, htask]
  cases c.task? t with
  | none => rfl
  | some x =>
    cases hs : x.storage? with
    | none => simp only [hs]
    | some s =>
      simp only [hs]
      exact congrArg (fun l => { c.cover b g m w with ledger := l }) (hblind ..)

/-! ## Deliveries -/

theorem enqueue_cover (c : Cluster) (u : UnitId) (t : TaskId) :
    (c.cover b g m w).enqueue u t = (c.enqueue u t).map (cover b g m w) := by
  have hunit : (c.cover b g m w).unit? u = c.unit? u := rfl
  rw [enqueue, enqueue, hunit]
  cases c.unit? u <;> rfl

theorem sendCopy_cover (task : Task) (fragment : Fragment) (c : Cluster) (u : UnitId) :
    sendCopy task fragment (c.cover b g m w) u = (sendCopy task fragment c u).cover b g m w := by
  have hmade : (c.cover b g m w).addTask (Task.replicaCopy task.operators fragment) =
    ((c.addTask (Task.replicaCopy task.operators fragment)).1.cover b g m w,
      (c.addTask (Task.replicaCopy task.operators fragment)).2) := rfl
  unfold sendCopy
  dsimp only
  rw [hmade, enqueue_cover]
  cases (c.addTask (Task.replicaCopy task.operators fragment)).1.enqueue u
    (c.addTask (Task.replicaCopy task.operators fragment)).2 <;> rfl

theorem broadcast_cover (c : Cluster) (t : TaskId) :
    (c.cover b g m w).broadcast t = (c.broadcast t).cover b g m w := by
  have htask : (c.cover b g m w).task? t = c.task? t := rfl
  rw [broadcast, broadcast, htask]
  cases c.task? t with
  | none => rfl
  | some x =>
    cases hs : x.storage? with
    | none => simp only [hs]
    | some s =>
      simp only [hs]
      exact List.foldl_hom (cover b g m w) fun c u => sendCopy_cover x s.fragment c u

theorem commit_cover (c : Cluster) (t : TaskId) :
    (c.cover b g m w).commit t = (c.commit t).map (cover b g m w) := by
  have htask : (c.cover b g m w).task? t = c.task? t := rfl
  rw [commit, commit, htask]
  cases c.task? t with
  | none => rfl
  | some x =>
    cases hs : x.storage? with
    | none => simp only [hs]; rfl
    | some s =>
      simp only [hs]
      exact enqueue_cover c (c.route x s) t

theorem commitAll_cover (ts : List TaskId) (c : Cluster) :
    (c.cover b g m w).commitAll ts = ((c.commitAll ts).1.cover b g m w, (c.commitAll ts).2) := by
  induction ts generalizing c with
  | nil => rfl
  | cons t rest ih =>
    rw [commitAll, commitAll, commit_cover]
    cases c.commit t with
    | error e => rfl
    | ok c' => exact ih c'

/-! ## Engines -/

theorem offerEngine_cover (c : Cluster) (e : StorageEngine) :
    (c.cover b g m w).offerEngine e = (c.offerEngine e).map fun r => (r.1.cover b g m w, r.2) := by
  have hengines : (c.cover b g m w).engines = c.engines := rfl
  have hfactories : (c.cover b g m w).factories = c.factories := rfl
  rw [offerEngine, offerEngine, hengines, hfactories, apply_ite (Except.map _)]
  refine ite_congr rfl (fun _ => rfl) fun _ => ?_
  cases KeyedList.find? e.type c.factories with
  | none => rfl
  | some f => cases hf : f.build e <;> simp only [hf] <;> rfl

theorem tryEngine_cover (c : Cluster) (e : StorageEngine) :
    (c.cover b g m w).tryEngine e = (c.tryEngine e).cover b g m w := by
  rw [tryEngine, offerEngine_cover, tryEngine]
  cases c.offerEngine e <;> rfl

theorem callDriver_cover [PatternLibrary] (c : Cluster) (s : EngineSite) (t : TaskId) (x : Task) :
    (c.cover b g m w).callDriver s t x =
      ((c.callDriver s t x).1.cover b g m w, (c.callDriver s t x).2) := by
  rw [callDriver, callDriver]
  cases hdriver : s.driver <;> rfl

theorem admitHeld_cover (c : Cluster) (type : String) (n : Nat) (runs : List Run) :
    (c.cover b g m w).admitHeld type n runs = c.admitHeld type n runs := by
  induction runs generalizing n with
  | nil => cases n <;> rfl
  | cons r rest ih =>
    cases n with
    | zero => rfl
    | succ n =>
      rw [admitHeld, admitHeld, ih, ih]
      rfl

theorem openGate_cover (c : Cluster) (type : String) (n : Nat) :
    (c.cover b g m w).openGate type n = (c.openGate type n).cover b g m w := by
  have hscript : (c.cover b g m w).script? type = c.script? type := rfl
  rw [openGate, openGate, hscript]
  cases c.script? type with
  | none => rfl
  | some script =>
    dsimp only
    rw [admitHeld_cover]
    rfl

theorem call_cover [PatternLibrary] (c : Cluster) (s : EngineSite) (d : Delivery) (x : Task) :
    (c.cover b g m w).call s d x = (c.call s d x).cover b g m w := by
  rw [call, call]
  cases hdriver : s.driver <;> rfl

/-! ## Moves -/

theorem conclude_cover (hblind : Blind m w) (c : Cluster) (d : Delivery) (r : TaskResult)
    (elapsed : Duration) :
    (c.cover b g m w).conclude d r elapsed = (c.conclude d r elapsed).cover b g m w := by
  have hspan : (((c.observe d.task elapsed).cover b g m w).modifyTask d.task
      fun x => x.setSpan elapsed) =
    ((c.observe d.task elapsed).modifyTask d.task fun x => x.setSpan elapsed).cover b g m w := rfl
  unfold conclude
  dsimp only
  rw [observe_cover hblind, hspan, settleTask_cover]
  generalize ((c.observe d.task elapsed).modifyTask d.task fun x => x.setSpan elapsed).settleTask
    d.task r = c₁
  rw [apply_ite (cover b g m w)]
  exact ite_congr rfl
    (fun _ => broadcast_cover { c₁ with finished := c₁.finished ++ [⟨d, .executed, r⟩] } d.task)
    fun _ => rfl

theorem start?_cover [PatternLibrary] (c : Cluster) (e : EngineId) :
    (c.cover b g m w).start? e = (c.start? e).map (cover b g m w) := by
  have hengine : (c.cover b g m w).engine? e = c.engine? e := rfl
  rw [start?, start?, hengine]
  cases c.engine? e with
  | none => rfl
  | some s =>
    dsimp only
    rw [apply_ite (Option.map (cover b g m w))]
    refine ite_congr rfl (fun _ => ?_) fun _ => rfl
    cases hpop : s.waiting.pop? with
    | none => rfl
    | some taken =>
      exact congrArg some (call_cover (c.putEngine { s with waiting := taken.2 })
        { s with waiting := taken.2 } taken.1 ((c.task? taken.1.task).getD default))

theorem complete?_cover (hblind : Blind m w) (c : Cluster) (d : Nat) (elapsed : Duration) :
    (c.cover b g m w).complete? d elapsed = (c.complete? d elapsed).map (cover b g m w) := by
  have hrunning : (c.cover b g m w).running = c.running := rfl
  rw [complete?, complete?, hrunning]
  cases c.running.find? fun r => r.delivery.id == d with
  | none => rfl
  | some r =>
    dsimp only
    rw [apply_ite (Option.map (cover b g m w))]
    refine ite_congr rfl (fun _ => rfl) fun _ => ?_
    exact congrArg some (conclude_cover hblind
      { c with running := c.running.filter fun r => r.delivery.id != d } r.delivery
      r.outcome.result elapsed)

theorem admitMemory?_cover (c : Cluster) :
    (c.cover b g m w).admitMemory? = c.admitMemory?.map (cover b g m w) := by
  have hmemory : (c.cover b g m w).memory = c.memory := rfl
  rw [admitMemory?, admitMemory?, hmemory, apply_ite (Option.map (cover b g m w))]
  refine ite_congr rfl (fun _ => ?_) fun _ => rfl
  cases c.memory.queue.pop? <;> rfl

theorem startMemory?_cover (c : Cluster) :
    (c.cover b g m w).startMemory? = c.startMemory?.map (cover b g m w) := by
  have hmemory : (c.cover b g m w).memory = c.memory := rfl
  rw [startMemory?, startMemory?, hmemory, apply_ite (Option.map (cover b g m w))]
  refine ite_congr rfl (fun _ => ?_) fun _ => rfl
  cases c.memory.waiting.pop? <;> rfl

theorem runMemory?_cover [PatternLibrary] (c : Cluster) (t : TaskId) (elapsed : Duration) :
    (c.cover b g m w).runMemory? t elapsed = (c.runMemory? t elapsed).map (cover b g m w) := by
  have hmemory : (c.cover b g m w).memory = c.memory := rfl
  rw [runMemory?, runMemory?, hmemory, apply_ite (Option.map (cover b g m w))]
  refine ite_congr rfl (fun _ => ?_) fun _ => rfl
  have hend : (((c.executeMemory t).1.cover b g m w).modifyTask t fun x =>
      (x.setSpan elapsed).setResult (c.executeMemory t).2) =
    ((c.executeMemory t).1.modifyTask t fun x =>
      (x.setSpan elapsed).setResult (c.executeMemory t).2).cover b g m w := rfl
  dsimp only
  rw [executeMemory_cover, hend, release_cover]
  rfl

theorem resolve?_cover (hmark : b c.isClosed = c.isClosed) (u : UnitId) :
    (c.cover b g m w).resolve? u = (c.resolve? u).map (cover b g m w) := by
  have hunit : (c.cover b g m w).unit? u = c.unit? u := rfl
  have hclosed : (c.cover b g m w).isClosed = c.isClosed := hmark
  rw [resolve?, resolve?, hunit, hclosed]
  cases c.unit? u with
  | none => rfl
  | some l =>
    dsimp only
    rw [apply_ite (Option.map (cover b g m w))]
    rfl

theorem giveUp?_cover (hmark : b c.isClosed = c.isClosed) (u : UnitId) :
    (c.cover b g m w).giveUp? u = (c.giveUp? u).map (cover b g m w) := by
  have hunit : (c.cover b g m w).unit? u = c.unit? u := rfl
  have hclosed : (c.cover b g m w).isClosed = c.isClosed := hmark
  rw [giveUp?, giveUp?, hunit, hclosed]
  cases c.unit? u with
  | none => rfl
  | some l =>
    dsimp only
    rw [apply_ite (Option.map (cover b g m w))]
    rfl

theorem reject_cover (c : Cluster) (d : Delivery) (fate : Fate) (e : Error) :
    (c.cover b g m w).reject d fate e = (c.reject d fate e).cover b g m w := by
  unfold reject
  rw [settleTask_cover]
  rfl

theorem decideDelivery_cover (c : Cluster) (l : UnitLoop) (d : Delivery) :
    (c.cover b g m w).decideDelivery l d = (c.decideDelivery l d).cover b g m w := by
  have hengine : (c.cover b g m w).engine? l.engine = c.engine? l.engine := rfl
  rw [decideDelivery, decideDelivery, hengine]
  cases c.engine? l.engine with
  | none => exact reject_cover c d _ _
  | some s =>
    dsimp only
    rw [apply_ite (cover b g m w)]
    exact ite_congr rfl
      (fun _ => reject_cover (c.modifyUnit l.id fun l => { l with phase := .serving }) d _ _)
      fun _ => rfl

theorem dispatch?_cover (hmark : b c.isClosed = c.isClosed) (u : UnitId) :
    (c.cover b g m w).dispatch? u = (c.dispatch? u).map (cover b g m w) := by
  have hunit : (c.cover b g m w).unit? u = c.unit? u := rfl
  have hclosed : (c.cover b g m w).isClosed = c.isClosed := hmark
  rw [dispatch?, dispatch?, hunit, hclosed]
  cases c.unit? u with
  | none => rfl
  | some l =>
    dsimp only
    rw [apply_ite (Option.map (cover b g m w))]
    refine ite_congr rfl (fun _ => rfl) fun _ => ?_
    cases hpop : l.queue.pop? with
    | none => rfl
    | some taken =>
      exact congrArg some (decideDelivery_cover ((c.modifyUnit u
        fun l => { l with queue := taken.2 }).modifyTask taken.1.task
          fun t => t.stampUnit l.id l.isDummy) l taken.1)

/-- The move is the end of a call. -/
def Step.isComplete : Step → Bool
  | .complete _ _ => true
  | _ => false

/-- A move does the same under a cover, if it does not look under it. -/
theorem step?_cover [PatternLibrary] {s : Step} (h : s.isLoop = true → b c.isClosed = c.isClosed)
    (hblind : s.isComplete = true → Blind m w) :
    (c.cover b g m w).step? s = (c.step? s).map (cover b g m w) := by
  cases s with
  | resolve u => exact resolve?_cover (h rfl) u
  | giveUp u => exact giveUp?_cover (h rfl) u
  | dispatch u => exact dispatch?_cover (h rfl) u
  | start e => exact start?_cover c e
  | complete d elapsed => exact complete?_cover (hblind rfl) c d elapsed
  | admitMemory => exact admitMemory?_cover c
  | startMemory => exact startMemory?_cover c
  | runMemory t elapsed => exact runMemory?_cover c t elapsed

/-! ## Requests -/

/-- Whether the request calls hooks, or takes what they have told. -/
def Request.meetsHooks : Request → Bool
  | .addEngine _ | .addUnit _ | .notifyUnit _ _ | .notifyEngine _ _ | .takeNotices => true
  | _ => false

theorem fits_cover (c : Cluster) (r : Request) : (c.cover b g m w).fits r = c.fits r := by
  cases r <;> rfl

theorem followFault_cover (c : Cluster) (before ps : List TaskId) :
    (c.cover b g m w).followFault before ps = c.followFault before ps := by
  induction ps generalizing before with
  | nil => rfl
  | cons p rest ih =>
    rw [followFault, followFault, ih]
    rfl

theorem follow_cover (c : Cluster) (operators : List Operator) (ps : List TaskId) :
    (c.cover b g m w).follow operators ps =
      (c.follow operators ps).map fun r => (r.1.cover b g m w, r.2) := by
  rw [follow, follow, followFault_cover]
  cases c.followFault [] ps with
  | some f => rfl
  | none =>
    let made := c.addTask (Task.newFollower operators ps)
    let link := fun (c : Cluster) p => c.modifyTask p fun x => x.setFollower made.2
    have hlinked : ps.foldl link (made.1.cover b g m w) = (ps.foldl link made.1).cover b g m w :=
      List.foldl_hom (cover b g m w) fun _ _ => rfl
    exact congrArg Except.ok (Prod.ext hlinked rfl)

theorem setFollower_cover (c : Cluster) (t f : TaskId) :
    (c.cover b g m w).setFollower t f = (c.setFollower t f).map (cover b g m w) := by
  rw [setFollower, setFollower, apply_ite (Except.map (cover b g m w))]
  rfl

theorem gatherSeries_cover (c : Cluster) (es : List StorageEngine) :
    (c.cover b g m w).gatherSeries es = c.gatherSeries es := by
  induction es with
  | nil => rfl
  | cons e rest ih =>
    rw [gatherSeries, gatherSeries, ih]
    rfl

theorem globalResult_cover [PatternLibrary] (c : Cluster) (op : Operator) :
    (c.cover b g m w).globalResult op = c.globalResult op := by
  unfold globalResult listSeries
  simp only [gatherSeries_cover]
  rfl

theorem orFault_cover (c : Cluster) (r : Except Fault Cluster) :
    (c.cover b g m w).orFault (r.map (cover b g m w)) =
      ((c.orFault r).1.cover b g m w, (c.orFault r).2) := by
  cases r <;> rfl

theorem orRefused_cover (c : Cluster) (r : Except Error Cluster) :
    (c.cover b g m w).orRefused (r.map (cover b g m w)) =
      ((c.orRefused r).1.cover b g m w, (c.orRefused r).2) := by
  cases r <;> rfl

theorem obey_cover [PatternLibrary] (hmark : b true = true) (c : Cluster) {r : Request}
    (hr : r.meetsHooks = false)
    (htake : r = .takeStats → ∀ l, (w l).take = (w l.take.1, l.take.2)) :
    (c.cover b g m w).obey r = ((c.obey r).1.cover b g m w, (c.obey r).2) := by
  -- Both sides are the same by computation unless a request reads or makes a cluster on its way;
  -- then what it calls is known to do the same under a cover.
  cases r with
  | offerEngine e =>
    simp only [obey, offerEngine_cover]
    cases c.offerEngine e <;> rfl
  | callDriver e t =>
    have hengine : (c.cover b g m w).engine? e = c.engine? e := rfl
    have htask : (c.cover b g m w).task? t = c.task? t := rfl
    simp only [obey, hengine, htask]
    cases c.engine? e with
    | none => rfl
    | some s =>
      cases c.task? t with
      | none => rfl
      | some x =>
        simp only [callDriver_cover]
        rcases c.callDriver s t x with ⟨c', _ | _⟩ <;> rfl
  | copyTask t =>
    have htask : (c.cover b g m w).task? t = c.task? t := rfl
    simp only [obey, htask]
    cases c.task? t with
    | none => rfl
    | some x =>
      cases hs : x.storage? with
      | none => simp only [hs]
      | some s =>
        simp only [hs]
        rfl
  | follow operators ps =>
    simp only [obey, follow_cover]
    cases c.follow operators ps <;> rfl
  | setFollower t f =>
    simp only [obey, setFollower_cover]
    exact orFault_cover c (c.setFollower t f)
  | execute t =>
    simp only [obey, executeMemory_cover]
  | commit t =>
    simp only [obey, commit_cover]
    exact orRefused_cover c (c.commit t)
  | commitTo t u =>
    simp only [obey, enqueue_cover]
    exact orRefused_cover c (c.enqueue u t)
  | commitAll ts =>
    simp only [obey, commitAll_cover]
    rcases c.commitAll ts with ⟨c', _ | e⟩ <;> rfl
  | executeGlobal t =>
    have htask : (c.cover b g m w).task? t = c.task? t := rfl
    simp only [obey, htask, globalResult_cover]
    cases (c.task? t).bind fun x => x.operators.head? <;> rfl
  | addMemory ts => exact Prod.ext (List.foldl_hom (cover b g m w) fun _ _ => rfl) rfl
  | openGate type n => exact Prod.ext (openGate_cover c type n) rfl
  | takeStats =>
    have hledger : (c.cover b g m w).ledger = w c.ledger := rfl
    simp only [obey, hledger, htake rfl]
    rfl
  | shutdown => simp only [obey, cover, hmark]
  | dropExecutor => simp only [obey, cover, hmark]
  | _ => first | rfl | cases hr

/-- A request that has nothing to do with hooks does the same under a cover, if it does not look
under it. -/
theorem handle_cover [PatternLibrary] (hmark : b true = true) (c : Cluster) {r : Request}
    (hr : r.meetsHooks = false)
    (htake : r = .takeStats → ∀ l, (w l).take = (w l.take.1, l.take.2)) :
    (c.cover b g m w).handle r = ((c.handle r).1.cover b g m w, (c.handle r).2) := by
  rw [handle, handle, fits_cover]
  split
  · exact obey_cover hmark c hr htake
  · rfl

/-! ## The cluster behind a veil -/

theorem tryEngine_veil (c : Cluster) (e : StorageEngine) :
    (c.veil b g).tryEngine e = (c.tryEngine e).veil b g :=
  tryEngine_cover (m := id) (w := id) c e

/-- A move does the same under a veil, if it does not look under it. -/
theorem step?_veil [PatternLibrary] {s : Step} (h : s.isLoop = true → b c.isClosed = c.isClosed) :
    (c.veil b g).step? s = (c.step? s).map (veil b g) :=
  step?_cover (m := id) (w := id) h fun _ _ _ _ _ _ _ => rfl

theorem fits_veil (c : Cluster) (r : Request) : (c.veil b g).fits r = c.fits r :=
  fits_cover (m := id) (w := id) c r

/-- A request that has nothing to do with hooks does the same under a veil. -/
theorem handle_veil [PatternLibrary] (hmark : b true = true) (c : Cluster) {r : Request}
    (hr : r.meetsHooks = false) :
    (c.veil b g).handle r = ((c.handle r).1.veil b g, (c.handle r).2) :=
  handle_cover (m := id) (w := id) hmark c hr fun _ _ => rfl

/-! ## Monitors -/

theorem learnUnit_aside (c : Cluster) (u : StorageUnit) :
    (c.cover id id m w).learnUnit u = (c.learnUnit u).cover id id m w := by
  have hunit : (c.cover id id m w).unit? u.id = c.unit? u.id := rfl
  rw [learnUnit, learnUnit, hunit, apply_ite (cover id id m w)]
  rfl

theorem unitCalled_aside (c : Cluster) (call : Call StorageUnit) :
    (c.cover id id m w).unitCalled call = (c.unitCalled call).cover id id m w := by
  have hlistening : (c.cover id id m w).isListening = c.isListening := rfl
  rw [unitCalled, unitCalled]
  split
  · rfl
  · rcases call with ⟨_, _ | _, _ | u⟩
    · rfl
    · dsimp only
      rw [hlistening]
      split
      · exact learnUnit_aside c u
      · rfl
    · rfl
    · rfl

theorem engineCalled_aside (c : Cluster) (call : Call StorageEngine) :
    (c.cover id id m w).engineCalled call = (c.engineCalled call).cover id id m w := by
  have hlistening : (c.cover id id m w).isListening = c.isListening := rfl
  have hcatalog : (c.cover id id m w).catalog = c.catalog := rfl
  rw [engineCalled, engineCalled]
  split
  · rfl
  · rcases call with ⟨_, _ | _, _ | e⟩
    · rfl
    · dsimp only
      rw [hlistening, hcatalog, tryEngine_cover]
      split <;> rfl
    · rfl
    · rfl

theorem addEngine_aside (c : Cluster) (e : StorageEngine) :
    (c.cover id id m w).addEngine e = (c.addEngine e).map (cover id id m w) := by
  have hcatalog : (c.cover id id m w).catalog = c.catalog := rfl
  rw [addEngine, addEngine, hcatalog]
  cases c.catalog.addEngine e with
  | error f => rfl
  | ok r =>
    have hcalls : r.2.foldl engineCalled ({ c with catalog := r.1 }.cover id id m w) =
        (r.2.foldl engineCalled { c with catalog := r.1 }).cover id id m w :=
      List.foldl_hom (cover id id m w) engineCalled_aside
    exact congrArg Except.ok hcalls

theorem addUnit_aside (c : Cluster) (u : StorageUnit) :
    (c.cover id id m w).addUnit u = (c.addUnit u).map (cover id id m w) := by
  have hcatalog : (c.cover id id m w).catalog = c.catalog := rfl
  rw [addUnit, addUnit, hcatalog]
  cases c.catalog.addUnit u with
  | error f => rfl
  | ok r =>
    have hcalls : r.2.foldl unitCalled ({ c with catalog := r.1 }.cover id id m w) =
        (r.2.foldl unitCalled { c with catalog := r.1 }).cover id id m w :=
      List.foldl_hom (cover id id m w) unitCalled_aside
    exact congrArg Except.ok hcalls

/-- All requests do the same, and get the same answers, whatever the monitors and the ledger are,
but for the one that takes the ledger. -/
theorem handle_aside [PatternLibrary] (c : Cluster) {r : Request} (hr : r ≠ .takeStats) :
    (c.cover id id m w).handle r = ((c.handle r).1.cover id id m w, (c.handle r).2) := by
  by_cases hhooks : r.meetsHooks = true
  · rw [handle, handle, fits_cover]
    split
    · cases r with
      | addEngine e =>
        simp only [obey, addEngine_aside]
        exact orFault_cover c (c.addEngine e)
      | addUnit u =>
        simp only [obey, addUnit_aside]
        exact orFault_cover c (c.addUnit u)
      | notifyUnit before after =>
        exact Prod.ext (List.foldl_hom (cover id id m w) unitCalled_aside) rfl
      | notifyEngine before after =>
        exact Prod.ext (List.foldl_hom (cover id id m w) engineCalled_aside) rfl
      | takeNotices => rfl
      | _ => cases hhooks
    · rfl
  · exact handle_cover rfl c (Bool.eq_false_iff.mpr hhooks) fun htake => absurd htake hr

/-! ## Notices -/

/-- The cluster without its notices. -/
def quiet (c : Cluster) : Cluster :=
  c.veil id fun _ => []

theorem unitCalled_quiet (c : Cluster) (call : Call StorageUnit) :
    (c.quiet.unitCalled call).quiet = (c.unitCalled call).quiet := by
  have hlistening : c.quiet.isListening = c.isListening := rfl
  rw [unitCalled, unitCalled]
  split
  · rfl
  · rcases call with ⟨_, _ | _, _ | u⟩
    · rfl
    · dsimp only
      rw [hlistening]
      split
      · have hunit : c.quiet.unit? u.id = c.unit? u.id := rfl
        rw [learnUnit, learnUnit, hunit, apply_ite quiet, apply_ite quiet]
        rfl
      · rfl
    · rfl
    · rfl

theorem engineCalled_quiet (c : Cluster) (call : Call StorageEngine) :
    (c.quiet.engineCalled call).quiet = (c.engineCalled call).quiet := by
  have hlistening : c.quiet.isListening = c.isListening := rfl
  have hcatalog : c.quiet.catalog = c.catalog := rfl
  have htry : ∀ e, c.quiet.tryEngine e = (c.tryEngine e).quiet := tryEngine_veil c
  rw [engineCalled, engineCalled]
  split
  · rfl
  · rcases call with ⟨_, _ | _, _ | e⟩
    · rfl
    · dsimp only
      rw [hlistening, hcatalog, htry]
      split <;> rfl
    · rfl
    · rfl

/-- What each of many steps makes of a cluster whatever its notices are, all of them do. -/
theorem foldl_quiet {α : Type} {f : Cluster → α → Cluster}
    (hf : ∀ c a, (f c.quiet a).quiet = (f c a).quiet) (as : List α) {c d : Cluster}
    (h : c.quiet = d.quiet) : (as.foldl f c).quiet = (as.foldl f d).quiet := by
  induction as generalizing c d with
  | nil => exact h
  | cons a rest ih => exact ih (((hf c a).symm.trans (by rw [h])).trans (hf d a))

variable [PatternLibrary]

theorem handle_quiet (c : Cluster) (r : Request) :
    (c.quiet.handle r).1.quiet = (c.handle r).1.quiet := by
  have hcatalog : c.quiet.catalog = c.catalog := rfl
  by_cases hhooks : r.meetsHooks = true
  · have hfits : c.quiet.fits r = c.fits r := fits_veil c r
    rw [handle, handle, hfits]
    cases r with
    | addEngine e =>
      simp only [obey, addEngine, hcatalog]
      cases c.catalog.addEngine e with
      | error f => rfl
      | ok r => exact foldl_quiet engineCalled_quiet r.2 rfl
    | addUnit u =>
      simp only [obey, addUnit, hcatalog]
      cases c.catalog.addUnit u with
      | error f => rfl
      | ok r => exact foldl_quiet unitCalled_quiet r.2 rfl
    | notifyUnit before after => exact foldl_quiet unitCalled_quiet _ rfl
    | notifyEngine before after => exact foldl_quiet engineCalled_quiet _ rfl
    | takeNotices => rfl
    | _ => cases hhooks
  · have hsame : c.quiet.handle r = ((c.handle r).1.quiet, (c.handle r).2) :=
      handle_veil (b := id) rfl c (Bool.eq_false_iff.mpr hhooks)
    rw [hsame]
    rfl

theorem after?_quiet (c : Cluster) (e : Event) :
    (c.quiet.after? e).map quiet = (c.after? e).map quiet := by
  cases e with
  | asked r => exact congrArg some (handle_quiet c r)
  | moved s =>
    have hstep : c.quiet.step? s = (c.step? s).map quiet := step?_veil (b := id) fun _ => rfl
    rw [after?, after?, hstep, Option.map_map]
    rfl

/-- What notices there are makes no difference to a history. -/
theorem run?_quiet {c d : Cluster} (h : c.quiet = d.quiet) (events : List Event) :
    (c.run? events).map quiet = (d.run? events).map quiet := by
  induction events generalizing c d with
  | nil => exact congrArg some h
  | cons e rest ih =>
    have hafter : (c.after? e).map quiet = (d.after? e).map quiet := by
      rw [← after?_quiet c, h, after?_quiet d]
    rw [run?, run?]
    cases hc : c.after? e with
    | none =>
      cases hd : d.after? e with
      | none => rfl
      | some d' => rw [hc, hd] at hafter; cases hafter
    | some c' =>
      cases hd : d.after? e with
      | none => rw [hc, hd] at hafter; cases hafter
      | some d' =>
        rw [hc, hd] at hafter
        exact ih (Option.some.inj hafter)

end Cluster
end SeriesExec
