import SeriesExec.Proofs.Events

/-!
# Task frames — what work leaves alone in a task

Of what is known of a task some things are settled when it is made, and others change only when a
loop takes it.  This file defines:

* `Task.Steady` — a trait of tasks that no result, time or report of a parent changes;
* `Task.Lasting` — such a trait that no follower changes either;
* `Cluster.trait` — the trait of a single task;
* `Request.makesMemory` and `Request.makesLinks` — the request makes a memory task, or gives tasks a
  follower.

Main statements: no request changes a steady trait of any task, new tasks and followers apart
(`trait_handle`), and no move does, the stamp of a loop apart (`trait_step?`).
-/

namespace SeriesExec

open Traffic

variable {β : Type} {v : Task → β} {b : β}

/-- The trait `v` stays through all that work does to a task but the stamp of a loop, and new tasks
that are no memory tasks have the trait `b`. -/
structure Task.Steady (v : Task → β) (b : β) : Prop where
  setResult : ∀ x r, v (Task.setResult x r) = v x
  setSpan : ∀ x d, v (Task.setSpan x d) = v x
  countParent : ∀ x, v (Task.countParent x) = v x
  forgetParents : ∀ x, v (Task.forgetParents x) = v x
  newStorage : ∀ operators fragment isSync broadcasts session,
    v (Task.newStorage operators fragment isSync broadcasts session) = b
  newGlobal : ∀ operator, v (Task.newGlobal operator) = b

/-- The trait `v` stays through all that happens to a task but the stamp of a loop, and new tasks
that are no memory tasks have the trait `b`. -/
structure Task.Lasting (v : Task → β) (b : β) : Prop where
  setResult : ∀ x r, v (Task.setResult x r) = v x
  setSpan : ∀ x d, v (Task.setSpan x d) = v x
  setFollower : ∀ x f, v (Task.setFollower x f) = v x
  countParent : ∀ x, v (Task.countParent x) = v x
  forgetParents : ∀ x, v (Task.forgetParents x) = v x
  newStorage : ∀ operators fragment isSync broadcasts session,
    v (Task.newStorage operators fragment isSync broadcasts session) = b
  newGlobal : ∀ operator, v (Task.newGlobal operator) = b

theorem Task.Lasting.steady (h : Task.Lasting v b) : Task.Steady v b :=
  ⟨h.setResult, h.setSpan, h.countParent, h.forgetParents, h.newStorage, h.newGlobal⟩

namespace Cluster

variable {c c' : Cluster}

/-- A request that makes a memory task. -/
def Request.makesMemory : Request → Bool
  | .newSource _ _ | .follow _ _ => true
  | _ => false

/-- A request that gives tasks a follower. -/
def Request.makesLinks : Request → Bool
  | .follow _ _ | .setFollower _ _ => true
  | _ => false

/-- A trait of a single task, which is `b` if there is no such task. -/
def trait (v : Task → β) (b : β) (c : Cluster) (t : TaskId) : β :=
  ((c.task? t).map v).getD b

theorem trait_congr (h : c'.tasks = c.tasks) : c'.trait v b = c.trait v b := by
  funext t
  rw [trait, trait, task?, task?, h]

theorem trait_of_backdrop (h : c'.backdrop = c.backdrop) : c'.trait v b = c.trait v b :=
  trait_congr (congrArg Backdrop.tasks h)

theorem trait_modifyTask (c : Cluster) (t : TaskId) {f : Task → Task} (hf : ∀ x, v (f x) = v x) :
    (c.modifyTask t f).trait v b = c.trait v b := by
  funext i
  rw [trait, task?_modifyTask, trait]
  cases c.task? i with
  | none => simp
  | some x => by_cases hi : i = t <;> simp [hi, hf]

theorem trait_addTask (c : Cluster) {x : Task} (hx : v x = b) :
    (c.addTask x).1.trait v b = c.trait v b := by
  funext i
  rw [trait, task?_addTask, trait]
  by_cases hi : i = c.tasks.length
  · rw [if_pos hi, Option.map_some, hx, task?, List.getElem?_eq_none (Nat.le_of_eq hi.symm)]
    rfl
  · rw [if_neg hi]

section Steady

variable (hv : Task.Steady v b)
include hv

theorem trait_settleTask (c : Cluster) (t : TaskId) (r : TaskResult) :
    (c.settleTask t r).trait v b = c.trait v b :=
  settleTask_keeps (fun c t r => trait_modifyTask c t fun x => hv.setResult x r)
    (fun c f => trait_modifyTask c f hv.countParent) (fun _ _ => rfl) c t r

theorem trait_broadcast (c : Cluster) (t : TaskId) :
    (c.broadcast t).trait v b = c.trait v b :=
  broadcast_keeps (sendCopy_keeps (fun c _ _ => trait_addTask c (hv.newStorage ..))
    fun henqueue => trait_of_backdrop (backdrop_enqueue henqueue)) c t

theorem trait_close (c : Cluster) (r : Run) (elapsed : Duration) :
    (c.close r elapsed).trait v b = c.trait v b := by
  change (settleTask _ r.delivery.task r.outcome.result).trait v b = _
  rw [trait_settleTask hv, trait_modifyTask (f := fun x => x.setSpan elapsed) _ _
    fun x => hv.setSpan x elapsed, trait_of_backdrop (backdrop_observe _ _ _)]
  rfl

variable [PatternLibrary]

theorem trait_runMemory? {t : TaskId} {elapsed : Duration}
    (h : c.runMemory? t elapsed = some c') : c'.trait v b = c.trait v b :=
  runMemory_keeps (fun c t => trait_modifyTask c t hv.forgetParents)
    (fun c t d r => trait_modifyTask c t fun x => (hv.setResult _ r).trans (hv.setSpan x d))
    (fun c f => trait_modifyTask c f hv.countParent) (fun _ _ => rfl) h

/-- No request touches a steady trait, unless it makes a task with another one, or gives tasks a
follower and the trait depends on that. -/
theorem trait_handle (c : Cluster) {r : Request} (hr : r.makesMemory = false ∨
      (∀ operators source, v (Task.newSource operators source) = b) ∧
        ∀ operators parents, v (Task.newFollower operators parents) = b)
    (hlinks : r.makesLinks = false ∨ ∀ x f, v (Task.setFollower x f) = v x) :
    (c.handle r).1.trait v b = c.trait v b := by
  unfold handle
  split
  · -- What spares the tasks keeps all their traits; the other requests make a task or change one in
    -- place, and a steady trait survives each of these changes.
    by_cases hspares : r.sparesTasks = true
    · exact trait_of_backdrop (backdrop_obey c hspares)
    · cases r with
      | newStorage operators fragment isSync broadcasts session =>
        exact trait_addTask c (hv.newStorage ..)
      | newSource operators source =>
        exact trait_addTask c ((hr.resolve_left (by simp [Request.makesMemory])).1 _ _)
      | newGlobal operator => exact trait_addTask c (hv.newGlobal operator)
      | copyTask t =>
        unfold obey
        dsimp only
        repeat' split
        all_goals first | rfl | exact trait_addTask c (hv.newStorage ..)
      | follow operators parents =>
        have hnew := (hr.resolve_left (by simp [Request.makesMemory])).2
        have hset := hlinks.resolve_left (by simp [Request.makesLinks])
        unfold obey
        dsimp only
        split
        · rename_i hfollow
          exact follow_keeps (fun c _ _ => trait_addTask c (hnew _ _))
            (fun c p f => trait_modifyTask c p fun x => hset x f) hfollow
        · rfl
      | setFollower t f =>
        have hset := hlinks.resolve_left (by simp [Request.makesLinks])
        unfold obey setFollower
        dsimp only
        split
        · rfl
        · exact trait_modifyTask c t fun x => hset x f
      | notifyParent t => exact trait_modifyTask c t hv.countParent
      | execute t =>
        unfold obey executeMemory
        dsimp only
        split
        · rfl
        · exact trait_modifyTask c t hv.forgetParents
      | setResult t r => exact trait_modifyTask c t fun x => hv.setResult x r
      | setSpan t d => exact trait_modifyTask c t fun x => hv.setSpan x d
      | executeGlobal t =>
        unfold obey
        dsimp only
        split
        · rfl
        · exact trait_modifyTask c t fun x => (hv.setResult _ _).trans (hv.setSpan x _)
      | addMemory ts =>
        exact foldl_keeps (g := trait v b) (f := addMemory) (fun _ _ => rfl) ts c
      | _ => first | rfl | exact absurd rfl hspares
  · rfl

/-- No move touches a steady trait, unless a loop takes a delivery and its stamp does. -/
theorem trait_step? {s : Step} (hs : (∀ u, s ≠ .dispatch u) ∨
      ∀ x u isDummy, v (Task.stampUnit x u isDummy) = v x) (h : c.step? s = some c') :
    c'.trait v b = c.trait v b := by
  cases s with
  | resolve u =>
    rcases serve_of_resolve? h with ⟨l, _, _, _, rfl⟩
    rfl
  | giveUp u =>
    rcases resign_of_giveUp? h with ⟨l, _, _, _, rfl⟩
    rfl
  | dispatch u =>
    have hstamp := hs.resolve_left fun hs => hs u rfl
    rcases dispatch_of_dispatch? h with ⟨l, d, rest, _, _, _, _, hdispatch⟩
    have htaken : (c.takeFirst l d rest).trait v b = c.trait v b :=
      trait_modifyTask _ _ fun x => hstamp x l.id l.isDummy
    cases hdispatch with
    | notReady _ => exact (trait_settleTask hv _ d.task _).trans htaken
    | overloaded _ _ _ => exact (trait_settleTask hv _ d.task _).trans htaken
    | submitted _ _ _ => exact htaken
  | start e => exact trait_of_backdrop (backdrop_start? h)
  | complete id elapsed =>
    rcases completion_of_complete? h with ⟨r, _, hcompletion⟩
    rw [hcompletion.after]
    split
    · exact (trait_broadcast hv _ r.delivery.task).trans (trait_close hv c r elapsed)
    · exact trait_close hv c r elapsed
  | admitMemory =>
    rcases admitted_of_admitMemory? h with ⟨t, rest, _, _, rfl⟩
    rfl
  | startMemory =>
    rcases started_of_startMemory? h with ⟨t, rest, _, _, rfl⟩
    rfl
  | runMemory t elapsed => exact trait_runMemory? hv h

end Steady

end Cluster
end SeriesExec
