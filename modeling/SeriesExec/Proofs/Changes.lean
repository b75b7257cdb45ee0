import SeriesExec.Proofs.Events
import SeriesExec.Proofs.Roster

/-!
# Changes — what every event does to the roster

This file goes through everything that can happen to a cluster once more and says what it does to
the tasks.  It defines:

* `Cluster.Request.isByHand` and `Cluster.Request.setsResult` — requests that interfere with tasks
  which loops and workers look after;
* `Cluster.Event.ran` and `Cluster.addedBy` — the tasks that an event runs in memory or puts into
  the memory stage from outside;
* `Cluster.Explains` — changes of the roster that account for an event;
* `Cluster.Coherent` — the traffic is sound, only storage tasks are delivered, and the roster is
  typed.

Main statements: every event is explained by changes (`exists_explains_of_after?`), so a history
keeps the cluster coherent (`Coherent.run?`) and keeps everything that tasks have
(`later_of_run?`).
-/

namespace SeriesExec

open Traffic Roster

/-- The task that has ended, and its result. -/
def Ending.news (e : Ending) : TaskId × TaskResult :=
  (e.delivery.task, e.result)

namespace Roster.Label

def settled? : Label → Option (TaskId × TaskResult)
  | .settled t r => some (t, r)
  | _ => none

def ran? : Label → Option TaskId
  | .ran t _ => some t
  | _ => none

def added? : Label → Option TaskId
  | .added t => some t
  | _ => none

end Roster.Label

namespace Cluster

variable {c c' : Cluster}

/-- Whether a request does by hand what is left to loops and workers. -/
def Request.isByHand : Request → Bool
  | .setFollower _ _ | .notifyParent _ | .execute _ => true
  | _ => false

/-- Whether a request gives a task a result of its own. -/
def Request.setsResult : Request → Bool
  | .setResult _ _ => true
  | _ => false

namespace Event

def isByHand : Event → Bool
  | .asked r => r.isByHand
  | .moved _ => false

def setsResult : Event → Bool
  | .asked r => r.setsResult
  | .moved _ => false

/-- The task that an event runs in memory. -/
def ran : Event → List TaskId
  | .moved (.runMemory t _) => [t]
  | _ => []

end Event

/-- The tasks that an event puts into the memory stage from outside. -/
def addedBy (c : Cluster) : Event → List TaskId
  | .asked (.addMemory ts) => if c.fits (.addMemory ts) then ts else []
  | _ => []

/-! ## The roster after single functions -/

theorem roster_congr (h : c'.backdrop = c.backdrop) : c'.roster = c.roster :=
  congrArg (fun a : Backdrop => (⟨fun t => a.tasks[t]?.map Task.core,
    a.memory.queue.items ++ a.memory.waiting.items ++ a.memory.running⟩ : Roster)) h

theorem task?_roster {t : TaskId} {x : Task} (h : c.task? t = some x) :
    c.roster.task? t = some x.core := by
  simp [roster, h]

theorem exists_task?_of_roster {t : TaskId} {y : Task} (h : c.roster.task? t = some y) :
    ∃ x, c.task? t = some x ∧ x.core = y :=
  Option.map_eq_some_iff.mp h

theorem roster_modifyTask (c : Cluster) (t : TaskId) {f g : Task → Task}
    (hf : ∀ x, (f x).core = g x.core) : (c.modifyTask t f).roster = c.roster.modify t g := by
  have htask : (c.modifyTask t f).roster.task? = (c.roster.modify t g).task? := by
    funext i
    rw [task?_modify]
    change ((c.modifyTask t f).task? i).map Task.core = _
    rw [task?_modifyTask]
    -- The change is looked at one number at a time; `hf` is what it is at `t`.
    by_cases hi : i = t
    · simp only [hi, if_true, roster, Option.map_map]
      congr 1
      funext x
      exact hf x
    · simp only [hi, if_false]
      rfl
  exact congrArg (Roster.mk · c.staged) htask

/-- A mark on a task does not show in the roster. -/
theorem roster_mark (c : Cluster) (t : TaskId) {f : Task → Task} (hf : ∀ x, (f x).core = x.core) :
    (c.modifyTask t f).roster = c.roster := by
  rw [roster_modifyTask c t (g := id) hf]
  have htask : (c.roster.modify t id).task? = c.roster.task? := by
    funext i
    rw [task?_modify, Option.map_id_fun, id, ite_self]
  exact congrArg (Roster.mk · c.staged) htask

theorem roster_addTask (c : Cluster) (x : Task) (i : TaskId) :
    (c.addTask x).1.roster.task? i =
      if i = c.tasks.length then some x.core else c.roster.task? i := by
  change ((c.addTask x).1.task? i).map Task.core = _
  rw [task?_addTask]
  split <;> rfl

theorem change_addTask [PatternLibrary] (c : Cluster) {x : Task} (hx : x.core.IsNew) :
    Change c.roster (c.addTask x).1.roster .made := by
  refine .made c.tasks.length x.core ?_ hx ?_ ?_ rfl
  · simp [roster, task?]
  · rw [roster_addTask, if_pos rfl]
  · intro i hi
    rw [roster_addTask, if_neg hi]

/-! ## Ends of tasks -/

/-- Releasing the follower of a task is informing it; the follower goes to the memory stage only
after that. -/
theorem roster_release {t : TaskId} {x : Task} (hx : c.task? t = some x) :
    (c.release t).1.roster.task? = (c.roster.inform x.follower).task? ∧
      (c.roster.inform x.follower).staged = (c.release t).1.staged ++ (c.release t).2.toList := by
  unfold release
  rw [hx, Option.bind_some]
  cases x.follower with
  | none => exact ⟨rfl, (List.append_nil _).symm⟩
  | some f =>
    dsimp only
    have hreport : (c.report f).1.roster = c.roster.modify f Task.countParent :=
      roster_modifyTask c f Task.core_countParent
    -- Whether the follower is released can be read from the roster after the report.
    have hreleased : (c.report f).2 =
        ((c.roster.modify f Task.countParent).task? f).any Task.isReleased := by
      rw [← hreport]
      change ((c.report f).1.task? f).any Task.isReleased =
        (((c.report f).1.task? f).map Task.core).any Task.isReleased
      cases (c.report f).1.task? f with
      | none => rfl
      | some y => exact (Task.core_isReleased y).symm
    simp only [inform, ← hreleased, hreport]
    refine ⟨trivial, ?_⟩
    cases (c.report f).2 <;> rfl

theorem memory_release (c : Cluster) (t : TaskId) : (c.release t).1.memory = c.memory := by
  unfold release
  split <;> rfl

theorem staged_addMemory (c : Cluster) (t : TaskId) :
    (c.addMemory t).staged.Perm (t :: c.staged) := by
  rw [staged, List.append_assoc]
  calc
    List.Perm _ (c.memory.queue.items ++ t :: (c.memory.waiting.items ++ c.memory.running)) :=
      List.Perm.of_eq (List.append_assoc _ [t] _)
    List.Perm _ (t :: (c.memory.queue.items ++ (c.memory.waiting.items ++ c.memory.running))) :=
      List.perm_middle
    _ = t :: c.staged := by rw [staged, List.append_assoc]

/-- The end of a storage task. -/
theorem change_settleTask [PatternLibrary] {t : TaskId} {x : Task} (hx : c.task? t = some x)
    (hstorage : x.isStorage) (r : TaskResult) :
    Change c.roster (c.settleTask t r).roster (.settled t r) := by
  -- The result is set first; the follower hears of it in the cluster `c₁` after that.
  generalize hc : c.modifyTask t (fun x => x.setResult r) = c₁
  have hset : c₁.roster = c.roster.modify t fun x => x.setResult r :=
    hc ▸ roster_modifyTask c t fun _ => rfl
  have htask : c₁.task? t = some (x.setResult r) := by
    rw [← hc, task?_modifyTask, if_pos rfl, hx, Option.map_some]
  have hinformed : c.roster.informed? t = if x.isSync then x.follower else none := by
    rw [informed?, task?_roster hx]
    rfl
  have hfinish : c.roster.finish t (fun x => x.setResult r) =
      c₁.roster.inform (if x.isSync then x.follower else none) := by
    rw [finish, hset, hinformed]
  have hcore : x.core.isStorage = true := (Task.core_isStorage x).trans hstorage
  unfold settleTask
  dsimp only
  rw [hc, htask, Option.any_some]
  by_cases hsync : x.isSync
  · rcases roster_release htask with ⟨hrelease, hstaged⟩
    rw [if_pos hsync] at hfinish
    rw [if_pos (show (x.setResult r).isSync = true from hsync)]
    rw [show (x.setResult r).follower = x.follower from rfl] at hrelease hstaged
    generalize c₁.release t = released at hrelease hstaged ⊢
    rcases released with ⟨c₂, _ | f⟩
    · refine .settled t x.core r (task?_roster hx) hcore (hfinish ▸ hrelease) ?_
      rw [hfinish, hstaged]
      change c₂.staged.Perm (c₂.staged ++ [])
      rw [List.append_nil]
    · refine .settled t x.core r (task?_roster hx) hcore (hfinish ▸ hrelease) ?_
      rw [hfinish, hstaged]
      exact (staged_addMemory c₂ f).trans (List.perm_append_singleton f c₂.staged).symm
  -- Nobody is told of the end of a task that is not sync.
  · rw [if_neg hsync] at hfinish
    rw [if_neg (show ¬(x.setResult r).isSync = true from hsync)]
    refine .settled t x.core r (task?_roster hx) hcore ?_ ?_ <;> rw [hfinish] <;> rfl

theorem parentRows_of_results (c : Cluster) (parents : List TaskId) (rs : List TaskResult)
    (hrs : (parents.map fun p => (c.task? p).bind Task.result) = rs.map some) :
    c.parentRows parents =
      match Task.firstError? rs with
      | some e => .error (.parentFailed e)
      | none => .ok (Task.rowOutputs rs) := by
  induction parents generalizing rs with
  | nil =>
    rcases List.map_eq_nil_iff.mp hrs.symm with rfl
    rfl
  | cons p rest ih =>
    cases rs with
    | nil => cases hrs
    | cons r rs =>
      rcases List.cons.inj hrs with ⟨hhead, htail⟩
      have hhead : (c.task? p).bind Task.result = some r := hhead
      unfold parentRows
      rw [hhead, ih rs htail]
      -- An error of a parent stops the search; a parent without rows hands none on.
      rcases r with e | _ | s
      · rfl
      · rfl
      · cases herror : Task.firstError? rs <;>
          simp only [Task.firstError?, Task.rowOutputs, List.findSome?_cons,
            List.filterMap_cons] at herror ⊢ <;> rw [herror] <;> rfl

/-- Once all parents of a memory task have results, these decide its own. -/
theorem memoryResult_of_results [PatternLibrary] {x : Task} {m : MemoryShape} {rs : List TaskResult}
    (hm : x.memory? = some m)
    (hrs : (m.parents.map fun p => (c.task? p).bind Task.result) = rs.map some) :
    c.memoryResult x = Task.fedResult x.operators m.source rs := by
  unfold memoryResult Task.fedResult
  rw [hm]
  dsimp only
  rw [parentRows_of_results c m.parents rs hrs]
  cases Task.firstError? rs <;> rfl

theorem result_roster (c : Cluster) (t : TaskId) :
    (c.roster.task? t).bind Task.result = (c.task? t).bind Task.result := by
  change ((c.task? t).map Task.core).bind Task.result = _
  cases c.task? t <;> rfl

/-! ## The end of a memory task -/

section RunStaged

variable [PatternLibrary] {t : TaskId} {elapsed : Duration}

theorem mem_staged_of_runMemory? (h : c.runMemory? t elapsed = some c') : t ∈ c.staged :=
  List.mem_append_right _ (chain_of_runMemory? h).1

theorem memory_runStaged (c : Cluster) (t : TaskId) (elapsed : Duration) :
    (c.runStaged t elapsed).memory = c.memory := by
  unfold runStaged executeMemory
  split <;> rfl

/-- The parents are forgotten once their results have been read. -/
theorem runStaged_eq {x : Task} (hx : c.task? t = some x) : c.runStaged t elapsed =
    (c.modifyTask t Task.forgetParents).modifyTask t
      fun y => (y.setSpan elapsed).setResult (c.memoryResult x) := by
  have hexecute : c.executeMemory t = (c.modifyTask t Task.forgetParents, c.memoryResult x) := by
    simp [executeMemory, hx]
  rw [runStaged, hexecute]

theorem roster_runStaged {x : Task} (hx : c.task? t = some x) : (c.runStaged t elapsed).roster =
    c.roster.modify t fun y => y.forgetParents.setResult (c.memoryResult x) := by
  rw [runStaged_eq hx, roster_modifyTask _ t (g := fun y => y.setResult (c.memoryResult x))
    (fun _ => rfl), roster_modifyTask c t Task.core_forgetParents, modify_modify]

theorem task?_runStaged {x : Task} (hx : c.task? t = some x) (elapsed : Duration) :
    (c.runStaged t elapsed).task? t =
      some ((x.forgetParents.setSpan elapsed).setResult (c.memoryResult x)) := by
  rw [runStaged_eq hx, task?_modifyTask, if_pos rfl, task?_modifyTask, if_pos rfl, hx]
  rfl

/-- The worker gives up its task and goes on with the follower, if that is released. -/
theorem staged_runMemory? (h : c.runMemory? t elapsed = some c') :
    c'.roster.task? = ((c.runStaged t elapsed).release t).1.roster.task? ∧
      (t :: c'.staged).Perm (((c.runStaged t elapsed).release t).1.staged ++
        ((c.runStaged t elapsed).release t).2.toList) := by
  rcases chain_of_runMemory? h with ⟨hrunning, c₂, released, hrelease, rfl⟩
  have hmemory : c₂.memory = c.memory := by
    have hkeep := memory_release (c.runStaged t elapsed) t
    rw [hrelease, memory_runStaged] at hkeep
    exact hkeep
  rw [hrelease]
  refine ⟨rfl, ?_⟩
  rw [← hmemory] at hrunning
  calc
    List.Perm _ (c₂.memory.queue.items ++ c₂.memory.waiting.items ++
        t :: (c₂.memory.running.erase t ++ released.toList)) := List.perm_middle.symm
    List.Perm _ (c₂.memory.queue.items ++ c₂.memory.waiting.items ++
        (c₂.memory.running ++ released.toList)) :=
      ((List.perm_cons_erase hrunning).symm.append_right _).append_left _
    _ = c₂.staged ++ released.toList := by rw [staged, List.append_assoc _ c₂.memory.running]

theorem change_runMemory? (htyped : c.roster.Typed) (h : c.runMemory? t elapsed = some c') :
    ∃ r, Change c.roster c'.roster (.ran t r) := by
  rcases htyped.staged t (mem_staged_of_runMemory? h) with ⟨y, hy, hmemory⟩
  rcases exists_task?_of_roster hy with ⟨x, hx, rfl⟩
  have hfollower : ((x.forgetParents.setSpan elapsed).setResult (c.memoryResult x)).follower =
      x.follower := by
    rcases x with ⟨_, _, _, _, _, _, _ | _ | _⟩ <;> rfl
  -- Memory tasks are sync, so the follower hears of the end.
  have hinformed : c.roster.informed? t = x.follower := by
    rw [informed?, hy]
    exact if_pos (htyped.sync t _ hy hmemory)
  have hfinish : c.roster.finish t (fun y => y.forgetParents.setResult (c.memoryResult x)) =
      (c.runStaged t elapsed).roster.inform x.follower := by
    rw [finish, roster_runStaged hx, hinformed]
  rcases roster_release (task?_runStaged hx elapsed) with ⟨hrelease, hreleased⟩
  rw [hfollower, ← hfinish] at hrelease hreleased
  rcases staged_runMemory? h with ⟨htask, hstaged⟩
  refine ⟨c.memoryResult x, .ran t x.core _ hy hmemory ?_ (htask.trans hrelease) ?_⟩
  · intro m rs hm hrs
    simp only [result_roster] at hrs
    exact memoryResult_of_results ((Task.core_memory? x).symm.trans hm) hrs
  · rw [hreleased]
    exact hstaged

end RunStaged

/-! ## New tasks -/

theorem followFault_eq_none {before parents : List TaskId}
    (h : c.followFault before parents = none) :
    parents.Nodup ∧ ∀ p ∈ parents, p ∉ before ∧ (c.task? p).bind Task.follower = none := by
  induction parents generalizing before with
  | nil => exact ⟨List.nodup_nil, fun p hp => nomatch hp⟩
  | cons q rest ih =>
    unfold followFault at h
    split at h
    · cases h
    · rename_i hbefore
      split at h
      · cases h
      · rename_i hfree
        rcases ih h with ⟨hnodup, hrest⟩
        refine ⟨List.nodup_cons.mpr ⟨fun hq => (hrest q hq).1 (by simp), hnodup⟩, ?_⟩
        intro p hp
        rcases List.mem_cons.mp hp with rfl | hp
        · exact ⟨by simpa using hbefore, by simpa using hfree⟩
        · exact ⟨fun hmem => (hrest p hp).1 (List.mem_append_left _ hmem), (hrest p hp).2⟩

/-- After the parents have been linked to their follower, each of them knows it. -/
theorem roster_foldl_setFollower (parents : List TaskId) (c : Cluster) (f i : TaskId) :
    (roster (parents.foldl (fun c p => c.modifyTask p fun t => t.setFollower f) c)).task? i =
      if i ∈ parents then (c.roster.task? i).map fun t => t.setFollower f
      else c.roster.task? i := by
  -- A parent that is listed twice would be set twice, to the same.
  have htwice : ∀ t : Task, (t.setFollower f).setFollower f = t.setFollower f := by
    intro t
    cases h : t.follower <;> simp [Task.setFollower, h]
  induction parents generalizing c with
  | nil => simp
  | cons p rest ih =>
    rw [List.foldl_cons, ih, roster_modifyTask c p (g := fun t => t.setFollower f) fun _ => rfl,
      task?_modify]
    by_cases hp : i = p
    · subst hp
      cases c.roster.task? i <;> simp [htwice]
    · simp [hp]

/-- A follower is made, and its parents know it. -/
theorem linked_of_follow {operators : List Operator} {parents : List TaskId} {f : TaskId}
    (hexist : ∀ p ∈ parents, (c.task? p).isSome)
    (h : c.follow operators parents = .ok (c', f)) :
    Linked c.roster c'.roster f operators parents := by
  have hstaged : c'.staged = c.staged :=
    follow_keeps (g := staged) (fun _ _ _ => rfl) (fun _ _ _ => rfl) h
  rcases made_of_follow h with ⟨hfault, rfl, rfl⟩
  rcases followFault_eq_none hfault with ⟨hnodup, hfree⟩
  have hnew : c.task? c.tasks.length = none := by simp [task?]
  -- The follower is new and its parents are there, so it is none of them.
  have hne : ∀ p ∈ parents, p ≠ c.tasks.length := by
    rintro p hp rfl
    have hsome := hexist _ hp
    rw [hnew] at hsome
    cases hsome
  exact {
    new := by simp [roster, hnew]
    nodup := hnodup
    free := by
      intro p hp
      rcases Option.isSome_iff_exists.mp (hexist p hp) with ⟨x, hx⟩
      have hfollower := (hfree p hp).2
      rw [hx, Option.bind_some] at hfollower
      exact ⟨x.core, task?_roster hx, hfollower⟩
    self := by
      rw [roster_foldl_setFollower, if_neg fun hmem => hne _ hmem rfl, roster_addTask, if_pos rfl]
      rfl
    parent := by
      intro p hp
      rw [roster_foldl_setFollower, if_pos hp, roster_addTask, if_neg (hne p hp)]
    other := by
      intro i hi hmem
      rw [roster_foldl_setFollower, if_neg hmem, roster_addTask, if_neg hi]
    staged := hstaged }

section

variable [PatternLibrary]

theorem changes_sendCopy (task : Task) (fragment : Fragment) (u : UnitId) :
    ∃ ls, Changes c.roster (sendCopy task fragment c u).roster ls ∧ ∀ l ∈ ls, l = .made := by
  unfold sendCopy
  dsimp only
  split
  · rename_i c₁ henqueue
    have hmade := change_addTask c (x := Task.replicaCopy task.operators fragment)
      (Task.isNew_core_new _ _ _ fun _ h => nomatch h)
    rw [← roster_congr (backdrop_enqueue henqueue)] at hmade
    exact ⟨_, hmade.single, fun l hl => List.mem_singleton.mp hl⟩
  · exact ⟨[], .nil _, fun _ hl => nomatch hl⟩

theorem changes_foldl_sendCopy (task : Task) (fragment : Fragment) (us : List UnitId) :
    ∃ ls, Changes c.roster (us.foldl (sendCopy task fragment) c).roster ls ∧
      ∀ l ∈ ls, l = .made := by
  induction us generalizing c with
  | nil => exact ⟨[], .nil _, fun _ hl => nomatch hl⟩
  | cons u rest ih =>
    rcases changes_sendCopy (c := c) task fragment u with ⟨ls, hfirst, hmade⟩
    rcases ih (c := sendCopy task fragment c u) with ⟨ls', hrest, hmade'⟩
    refine ⟨ls ++ ls', hfirst.append hrest, ?_⟩
    intro l hl
    rcases List.mem_append.mp hl with hl | hl
    · exact hmade l hl
    · exact hmade' l hl

/-- The copies of a task are new tasks. -/
theorem changes_broadcast (t : TaskId) :
    ∃ ls, Changes c.roster (c.broadcast t).roster ls ∧ ∀ l ∈ ls, l = .made := by
  rcases broadcast_eq c t with hsame | ⟨task, fragment, us, hsent⟩
  · rw [hsame]
    exact ⟨[], .nil _, fun _ hl => nomatch hl⟩
  · rw [hsent]
    exact changes_foldl_sendCopy task fragment us

/-! ## Requests about tasks -/

theorem change_quiet (h : c'.roster = c.roster) : Change c.roster c'.roster .quiet :=
  .quiet (congrArg Roster.task? h) (h ▸ List.Perm.refl _)

/-- A follower is made, unless one of its parents is not free to take it. -/
theorem change_follow {operators : List Operator} {parents : List TaskId}
    (hfits : c.fits (.follow operators parents) = true) :
    (c.obey (.follow operators parents)).1.roster = c.roster ∨
      Change c.roster (c.obey (.follow operators parents)).1.roster .linked := by
  cases hfollow : c.follow operators parents with
  | error f =>
    refine .inl ?_
    simp [obey, hfollow]
  | ok made =>
    rcases made with ⟨made, f⟩
    have hlinked := linked_of_follow (fun p hp => (List.all_eq_true.mp hfits) p hp) hfollow
    have hmade : (c.obey (.follow operators parents)).1 = made := by simp [obey, hfollow]
    rw [← hmade] at hlinked
    exact .inr (.linked f operators parents hlinked)

/-- A task gets a follower, unless it has one. -/
theorem change_setFollower {t f : TaskId} (hfits : c.fits (.setFollower t f) = true) :
    (c.obey (.setFollower t f)).1.roster = c.roster ∨
      Change c.roster (c.obey (.setFollower t f)).1.roster .byHand := by
  unfold obey setFollower
  dsimp only
  by_cases htaken : ((c.task? t).bind Task.follower).isSome
  · rw [if_pos htaken]
    exact .inl rfl
  · rw [if_neg htaken]
    rcases (Option.any_eq_true _ _).mp (Bool.and_eq_true_iff.mp hfits).2 with ⟨x, hx, hmemory⟩
    refine .inr (.byHand t (fun y => y.setFollower f) (fun y => Task.later_setFollower y f)
      (fun _ => rfl) ?_ (roster_modifyTask c t fun _ => rfl))
    intro y g hg
    cases hfollower : y.follower with
    | some g' => exact .inl (by simpa [Task.setFollower, hfollower] using hg)
    | none =>
      obtain rfl : f = g := by simpa [Task.setFollower, hfollower] using hg
      exact .inr ⟨x.core, task?_roster hx, (Task.core_isMemory x).trans hmemory⟩

/-- A follower is told by hand that a parent has ended. -/
theorem change_report (c : Cluster) (t : TaskId) :
    Change c.roster (c.report t).1.roster .byHand := by
  refine .byHand t Task.countParent Task.later_countParent ?_ ?_
    (roster_modifyTask c t Task.core_countParent)
  · intro x
    rcases x with ⟨_, _, _, _, _, _, _ | _ | _⟩ <;> rfl
  · intro x g hg
    refine .inl ?_
    rcases x with ⟨_, _, _, _, _, _, _ | _ | _⟩ <;> exact hg

/-- A memory task that is executed by hand loses its parents, and gets no result. -/
theorem change_execute {t : TaskId} (hfits : c.fits (.execute t) = true) :
    Change c.roster (c.obey (.execute t)).1.roster .byHand := by
  rcases (Option.any_eq_true _ _).mp hfits with ⟨x, hx, _⟩
  have hexecute : (c.obey (.execute t)).1 = c.modifyTask t Task.forgetParents := by
    simp [obey, executeMemory, hx]
  refine .byHand t Task.forgetParents Task.later_forgetParents ?_ ?_
    (hexecute ▸ roster_modifyTask c t Task.core_forgetParents)
  · intro y
    rcases y with ⟨_, _, _, _, _, _, _ | _ | _⟩ <;> rfl
  · intro y g hg
    refine .inl ?_
    rcases y with ⟨_, _, _, _, _, _, _ | _ | _⟩ <;> exact hg

/-- A task over the cluster gets its result, if it has an operator. -/
theorem change_executeGlobal {t : TaskId} (hfits : c.fits (.executeGlobal t) = true) :
    (c.obey (.executeGlobal t)).1.roster = c.roster ∨
      Change c.roster (c.obey (.executeGlobal t)).1.roster .told := by
  rcases (Option.any_eq_true _ _).mp hfits with ⟨x, hx, hglobal⟩
  cases hop : x.operators.head? with
  | none =>
    refine .inl ?_
    simp [obey, hx, hop]
  | some op =>
    have htold : (c.obey (.executeGlobal t)).1 = c.modifyTask t fun task =>
        (task.setSpan Duration.zero).setResult (c.globalResult op) := by
      simp [obey, hx, hop]
    refine .inr (.told t x.core (c.globalResult op) (task?_roster hx)
      ((Task.core_isGlobal x).trans hglobal) ?_)
    rw [htold]
    exact roster_modifyTask c t fun _ => rfl

/-! ## All events -/

/-- The changes `ls` account for an event: they lead from the one roster to the other, and they end,
run and add the tasks that the event does. -/
structure Explains (c : Cluster) (e : Event) (c' : Cluster) (ls : List Label) : Prop where
  changes : Changes c.roster c'.roster ls
  settled : c'.finished.map Ending.news = c.finished.map Ending.news ++ ls.filterMap Label.settled?
  ran : ls.filterMap Label.ran? = e.ran
  added : ls.filterMap Label.added? = c.addedBy e
  byHand : .byHand ∈ ls → e.isByHand = true
  forced : .forced ∈ ls → e.setsResult = true

/-- A change that ends, runs and adds nothing explains an event that does not either. -/
theorem Explains.of_change {e : Event} {l : Label} (h : Change c.roster c'.roster l)
    (hfinished : c'.finished = c.finished) (hran : e.ran = []) (hadded : c.addedBy e = [])
    (hl : l = .quiet ∨ l = .made ∨ l = .linked ∨ l = .told ∨ l = .byHand ∧ e.isByHand ∨
      l = .forced ∧ e.setsResult) : c.Explains e c' [l] := by
  refine ⟨h.single, ?_, ?_, ?_, ?_, ?_⟩ <;>
    rcases hl with rfl | rfl | rfl | rfl | ⟨rfl, hhand⟩ | ⟨rfl, hforced⟩ <;>
    simp_all [Label.settled?, Label.ran?, Label.added?]

/-- An event that changes nothing in the roster. -/
theorem Explains.of_roster {e : Event} (hroster : c'.roster = c.roster)
    (hfinished : c'.finished = c.finished) (hran : e.ran = []) (hadded : c.addedBy e = []) :
    c.Explains e c' [.quiet] :=
  .of_change (change_quiet hroster) hfinished hran hadded (.inl rfl)

theorem changes_foldl_addMemory (ts : List TaskId)
    (hmemory : ∀ t ∈ ts, (c.task? t).any Task.isMemory) :
    Changes c.roster (ts.foldl addMemory c).roster (ts.map .added) := by
  induction ts generalizing c with
  | nil => exact .nil _
  | cons t rest ih =>
    rcases (Option.any_eq_true _ _).mp (hmemory t List.mem_cons_self) with ⟨x, hx, hx'⟩
    -- Later additions ask for the same tasks, which adding `t` does not change.
    have hfirst : Change c.roster (c.addMemory t).roster (.added t) :=
      .added t x.core (task?_roster hx) ((Task.core_isMemory x).trans hx') rfl
        (staged_addMemory c t)
    exact .cons hfirst (ih (c := c.addMemory t) fun t' ht' =>
      hmemory t' (List.mem_cons_of_mem t ht'))

/-- A request that adds tasks to the memory stage is explained by these. -/
theorem explains_addMemory {ts : List TaskId} (hfits : c.fits (.addMemory ts) = true) :
    c.Explains (.asked (.addMemory ts)) (c.obey (.addMemory ts)).1 (ts.map .added) := by
  have hadded : c.addedBy (.asked (.addMemory ts)) = ts := if_pos hfits
  have hfinished : (c.obey (.addMemory ts)).1.finished = c.finished :=
    congrArg Traffic.finished (traffic_foldl_addMemory ts c)
  refine ⟨changes_foldl_addMemory ts (List.all_eq_true.mp hfits), ?_, ?_, ?_, ?_, ?_⟩
  · rw [hfinished]
    simp [Label.settled?, Function.comp_def]
  · simp [Label.ran?, Event.ran, Function.comp_def]
  · rw [hadded]
    simp [Label.added?, Function.comp_def]
  · simp
  · simp

/-- Every request is explained by one change, or by the memory tasks that it adds. -/
theorem exists_explains_of_obey {r : Request} (hfits : c.fits r = true)
    (hfinished : (c.obey r).1.finished = c.finished) :
    ∃ ls, c.Explains (.asked r) (c.obey r).1 ls := by
  -- Most requests leave the roster alone, or make one task.
  have hquiet : (c.obey r).1.roster = c.roster → c.addedBy (.asked r) = [] →
      ∃ ls, c.Explains (.asked r) (c.obey r).1 ls := fun hroster hadded =>
    ⟨_, .of_roster hroster hfinished rfl hadded⟩
  have hmake : ∀ x : Task, x.core.IsNew → (c.obey r).1 = (c.make x).1 →
      c.addedBy (.asked r) = [] → ∃ ls, c.Explains (.asked r) (c.obey r).1 ls :=
    fun x hx hmade hadded => ⟨_, .of_change (hmade ▸ change_addTask c hx) hfinished rfl hadded
      (.inr (.inl rfl))⟩
  by_cases hspares : r.sparesTasks = true
  · refine hquiet (roster_congr (backdrop_obey c hspares)) ?_
    cases r <;> first | rfl | cases hspares
  cases r with
  | newStorage operators fragment isSync broadcasts session =>
    exact hmake (Task.newStorage operators fragment isSync broadcasts session)
      (Task.isNew_core_new _ _ _ fun _ h => nomatch h) rfl rfl
  | newSource operators source =>
    refine hmake _ (Task.isNew_core_new _ _ _ ?_) rfl rfl
    intro m hm
    cases hm
    exact ⟨rfl, rfl⟩
  | newGlobal operator =>
    exact hmake (Task.newGlobal operator) (Task.isNew_core_new _ _ _ fun _ h => nomatch h) rfl rfl
  | copyTask t =>
    rcases (Option.any_eq_true _ _).mp hfits with ⟨x, hx, hstorage⟩
    rcases Option.isSome_iff_exists.mp hstorage with ⟨s, hs⟩
    refine hmake (Task.replicaCopy x.operators s.fragment)
      (Task.isNew_core_new _ _ _ fun _ h => nomatch h) ?_ rfl
    simp [obey, hx, hs]
  | follow operators parents =>
    rcases change_follow hfits with hsame | hlinked
    · exact hquiet hsame rfl
    · exact ⟨_, .of_change hlinked hfinished rfl rfl (.inr (.inr (.inl rfl)))⟩
  | setFollower t f =>
    rcases change_setFollower hfits with hsame | hset
    · exact hquiet hsame rfl
    · exact ⟨_, .of_change hset hfinished rfl rfl (.inr (.inr (.inr (.inr (.inl ⟨rfl, rfl⟩)))))⟩
  | notifyParent t =>
    exact ⟨_, .of_change (change_report c t) hfinished rfl rfl
      (.inr (.inr (.inr (.inr (.inl ⟨rfl, rfl⟩)))))⟩
  | execute t =>
    exact ⟨_, .of_change (change_execute hfits) hfinished rfl rfl
      (.inr (.inr (.inr (.inr (.inl ⟨rfl, rfl⟩)))))⟩
  | setResult t r =>
    exact ⟨_, .of_change (.forced t r (roster_modifyTask c t fun _ => rfl)) hfinished rfl rfl
      (.inr (.inr (.inr (.inr (.inr ⟨rfl, rfl⟩)))))⟩
  | setSpan t d => exact hquiet (roster_mark c t fun _ => rfl) rfl
  | executeGlobal t =>
    rcases change_executeGlobal hfits with hsame | htold
    · exact hquiet hsame rfl
    · exact ⟨_, .of_change htold hfinished rfl rfl (.inr (.inr (.inr (.inl rfl))))⟩
  | addMemory ts => exact ⟨_, explains_addMemory hfits⟩
  | startMemory => exact hquiet rfl rfl
  | stopMemory => exact hquiet rfl rfl
  | shutdown => exact hquiet rfl rfl
  | dropExecutor => exact hquiet rfl rfl
  | _ => exact absurd rfl hspares

theorem exists_explains_of_handle (h : c.traffic.Orderly) (r : Request) :
    ∃ ls, c.Explains (.asked r) (c.handle r).1 ls := by
  by_cases hfits : c.fits r
  · have hobey : c.handle r = c.obey r := if_pos hfits
    rcases accepts_handle h r with ⟨new, haccepts, _⟩
    rw [hobey] at haccepts ⊢
    exact exists_explains_of_obey hfits haccepts.finished
  · have hhandle : c.handle r = (c, .unfit) := if_neg hfits
    rw [hhandle]
    refine ⟨_, .of_roster rfl rfl rfl ?_⟩
    cases r <;> first | rfl | exact if_neg hfits

theorem change_settleTask_of_roster {c₁ : Cluster} {t : TaskId} (h : c.roster.HasStorage t)
    (hroster : c₁.roster = c.roster) (r : TaskResult) :
    Change c.roster (c₁.settleTask t r).roster (.settled t r) := by
  rcases h with ⟨y, hy, hstorage⟩
  rcases exists_task?_of_roster (hroster ▸ hy) with ⟨x, hx, rfl⟩
  exact hroster ▸ change_settleTask hx ((Task.core_isStorage x).symm.trans hstorage) r

/-- A delivery that is refused ends its task. -/
theorem explains_reject {c₁ : Cluster} {u : UnitId} {d : Delivery} (h : c.roster.HasStorage d.task)
    (hroster : c₁.roster = c.roster) (hfinished : c₁.finished = c.finished) (fate : Fate)
    (e : Error) :
    c.Explains (.moved (.dispatch u)) (c₁.reject d fate e) [.settled d.task (.error e)] where
  changes := (change_settleTask_of_roster h hroster (.error e)).single
  settled := by
    have htraffic := congrArg Traffic.finished (traffic_reject c₁ d fate e)
    change (c₁.reject d fate e).finished = c₁.finished ++ [⟨d, fate, .error e⟩] at htraffic
    rw [htraffic, hfinished, List.map_append]
    rfl
  ran := rfl
  added := rfl
  byHand := by simp
  forced := by simp

end

theorem finished_enqueue {u : UnitId} {t : TaskId} (h : c.enqueue u t = .ok c') :
    c'.finished = c.finished := by
  unfold enqueue at h
  split at h
  · cases h
  · injection h with h
    exact h ▸ rfl

theorem finished_broadcast (c : Cluster) (t : TaskId) :
    (c.broadcast t).finished = c.finished :=
  broadcast_keeps (sendCopy_keeps (fun _ _ _ => rfl) finished_enqueue) c t

theorem filterMap_made {α : Type} {ls : List Label} (hmade : ∀ l ∈ ls, l = .made)
    {f : Label → Option α} (hf : f .made = none) : ls.filterMap f = [] :=
  List.filterMap_eq_nil_iff.mpr fun l hl => hmade l hl ▸ hf

theorem change_close [PatternLibrary] {r : Run} (h : c.roster.HasStorage r.delivery.task)
    (elapsed : Duration) :
    Change c.roster (c.close r elapsed).roster (.settled r.delivery.task r.outcome.result) := by
  refine change_settleTask_of_roster h ?_ r.outcome.result
  rw [roster_mark _ _ fun x => Task.core_setSpan x elapsed, roster_congr (backdrop_observe _ _ _)]
  rfl

/-- A worker that ends a delivery ends its task, and makes new tasks at most. -/
theorem exists_explains_of_completion [PatternLibrary] {r : Run} {elapsed : Duration}
    (h : c.roster.HasStorage r.delivery.task) (hc : c.Completion r elapsed c') (id : Nat) :
    ∃ ls, c.Explains (.moved (.complete id elapsed)) c' ls := by
  have hfinished : (c.close r elapsed).finished.map Ending.news = c.finished.map Ending.news ++
      [(r.delivery.task, r.outcome.result)] := by
    rw [show (c.close r elapsed).finished = c.finished ++ _ from
      congrArg Traffic.finished (traffic_close c r elapsed), List.map_append]
    rfl
  -- The copies come after the end, and are nothing but new tasks.
  have hmade : ∃ ls, Changes (c.close r elapsed).roster c'.roster ls ∧ (∀ l ∈ ls, l = .made) ∧
      c'.finished = (c.close r elapsed).finished := by
    rw [hc.after]
    split
    · rcases changes_broadcast (c := c.close r elapsed) r.delivery.task with ⟨ls, hchanges, hmade⟩
      exact ⟨ls, hchanges, hmade, finished_broadcast _ _⟩
    · exact ⟨[], .nil _, (fun _ hl => nomatch hl), rfl⟩
  rcases hmade with ⟨ls, hchanges, hmade, hsame⟩
  refine ⟨.settled r.delivery.task r.outcome.result :: ls,
    .cons (change_close h elapsed) hchanges, ?_, ?_, ?_, ?_, ?_⟩
  · rw [hsame, hfinished, List.filterMap_cons, filterMap_made hmade rfl]
    rfl
  · rw [List.filterMap_cons, filterMap_made hmade rfl]
    rfl
  · rw [List.filterMap_cons, filterMap_made hmade rfl]
    rfl
  · intro hl
    rcases List.mem_cons.mp hl with hl | hl
    · cases hl
    · cases hmade _ hl
  · intro hl
    rcases List.mem_cons.mp hl with hl | hl
    · cases hl
    · cases hmade _ hl

/-- The traffic is sound, only storage tasks are delivered, and the roster is typed. -/
structure Coherent (c : Cluster) : Prop where
  sound : c.Sound
  storage : c.StorageOnly c.traffic.deliveries
  typed : c.roster.Typed

theorem Coherent.hasStorage (h : c.Coherent) {d : Delivery} (hd : d ∈ c.traffic.deliveries) :
    c.roster.HasStorage d.task := by
  rcases h.storage d hd with ⟨x, hx, hstorage⟩
  exact ⟨x.core, task?_roster hx, (Task.core_isStorage x).trans hstorage⟩

theorem mem_deliveries_of_queue {l : UnitLoop} {d : Delivery} (hl : l ∈ c.units)
    (hd : d ∈ l.queue.items) : d ∈ c.traffic.deliveries := by
  have hqueued : d ∈ c.traffic.queued := List.mem_flatMap.mpr ⟨l, hl, hd⟩
  simp [deliveries, hqueued]

theorem mem_deliveries_of_running {r : Run} (hr : r ∈ c.running) :
    r.delivery ∈ c.traffic.deliveries := by
  have hunderway : r.delivery ∈ c.traffic.underway := List.mem_map_of_mem hr
  simp [deliveries, hunderway]

theorem roster_takeFirst (c : Cluster) (l : UnitLoop) (d : Delivery) (rest : List Delivery) :
    (c.takeFirst l d rest).roster = c.roster :=
  roster_mark _ _ fun x => Task.core_stampUnit x l.id l.isDummy

theorem staged_admitMemory? (h : c.admitMemory? = some c') :
    c'.roster.task? = c.roster.task? ∧ c'.staged.Perm c.staged := by
  rcases admitted_of_admitMemory? h with ⟨t, rest, _, hitems, rfl⟩
  refine ⟨rfl, ?_⟩
  calc
    List.Perm _ (rest ++ c.memory.waiting.items ++ [t] ++ c.memory.running) :=
      List.Perm.of_eq (congrArg (· ++ c.memory.running) (List.append_assoc _ _ _).symm)
    List.Perm _ (t :: (rest ++ c.memory.waiting.items) ++ c.memory.running) :=
      (List.perm_append_singleton t _).append_right _
    _ = c.staged := by
      rw [staged, hitems]
      rfl

theorem staged_startMemory? (h : c.startMemory? = some c') :
    c'.roster.task? = c.roster.task? ∧ c'.staged.Perm c.staged := by
  rcases started_of_startMemory? h with ⟨t, rest, _, hitems, rfl⟩
  refine ⟨rfl, ?_⟩
  calc
    List.Perm _ (c.memory.queue.items ++ (rest ++ c.memory.running ++ [t])) :=
      List.Perm.of_eq (by simp [staged])
    List.Perm _ (c.memory.queue.items ++ t :: (rest ++ c.memory.running)) :=
      (List.perm_append_singleton t _).append_left _
    _ = c.staged := by
      rw [staged, hitems, List.append_assoc]
      rfl

/-- Every move is explained. -/
theorem exists_explains_of_step? [PatternLibrary] (h : c.Coherent) {s : Step}
    (hstep : c.step? s = some c') : ∃ ls, c.Explains (.moved s) c' ls := by
  -- The roster changes when a delivery is over or a staged task runs; other moves are quiet on it.
  cases s with
  | resolve u =>
    rcases serve_of_resolve? hstep with ⟨l, _, _, _, rfl⟩
    exact ⟨_, .of_roster rfl rfl rfl rfl⟩
  | giveUp u =>
    rcases resign_of_giveUp? hstep with ⟨l, _, _, _, rfl⟩
    exact ⟨_, .of_roster rfl rfl rfl rfl⟩
  | dispatch u =>
    rcases dispatch_of_dispatch? hstep with ⟨l, d, rest, hl, _, _, hitems, hdispatch⟩
    have hstorage : c.roster.HasStorage d.task := h.hasStorage
      (mem_deliveries_of_queue (mem_units_of_unit? hl) (hitems ▸ List.mem_cons_self))
    have htaken := roster_takeFirst c l d rest
    cases hdispatch with
    | notReady _ => exact ⟨_, explains_reject hstorage htaken rfl _ _⟩
    | overloaded _ _ _ =>
      have hserved : ((c.takeFirst l d rest).serve l).roster = c.roster := htaken
      exact ⟨_, explains_reject hstorage hserved rfl _ _⟩
    | submitted _ _ _ => exact ⟨_, .of_roster htaken rfl rfl rfl⟩
  | start e =>
    rcases start_of_start? h.sound.orderly hstep with ⟨s, d, rest, rfl, hstart⟩
    rcases hstart.traffic with ⟨driver, outcome, isHeld, htraffic⟩
    exact ⟨_, .of_roster (roster_congr hstart.backdrop) (congrArg Traffic.finished htraffic)
      rfl rfl⟩
  | complete id elapsed =>
    rcases completion_of_complete? hstep with ⟨r, _, hcompletion⟩
    exact exists_explains_of_completion (h.hasStorage (mem_deliveries_of_running
      (List.mem_of_find?_eq_some hcompletion.found))) hcompletion id
  | admitMemory =>
    rcases staged_admitMemory? hstep with ⟨htask, hstaged⟩
    exact ⟨_, .of_change (.quiet htask hstaged)
      (congrArg Traffic.finished (traffic_admitMemory? hstep)) rfl rfl (.inl rfl)⟩
  | startMemory =>
    rcases staged_startMemory? hstep with ⟨htask, hstaged⟩
    exact ⟨_, .of_change (.quiet htask hstaged)
      (congrArg Traffic.finished (traffic_startMemory? hstep)) rfl rfl (.inl rfl)⟩
  | runMemory t elapsed =>
    rcases change_runMemory? h.typed hstep with ⟨r, hchange⟩
    have hfinished : c'.finished = c.finished :=
      congrArg Traffic.finished (traffic_runMemory? hstep)
    exact ⟨_, hchange.single, by simp [hfinished, Label.settled?], rfl, rfl, by simp, by simp⟩

/-- Whatever happens is explained by changes of the roster. -/
theorem exists_explains_of_after? [PatternLibrary] (h : c.Coherent) {e : Event}
    (hafter : c.after? e = some c') : ∃ ls, c.Explains e c' ls := by
  cases e with
  | asked r =>
    injection hafter with hafter
    exact hafter ▸ exists_explains_of_handle h.sound.orderly r
  | moved s => exact exists_explains_of_step? h hafter

theorem later_task? (h : c.roster.Later c'.roster) {t : TaskId} {x : Task}
    (hx : c.task? t = some x) : ∃ y, c'.task? t = some y ∧ x.core.Later y.core := by
  rcases h t x.core (task?_roster hx) with ⟨y, hy, hxy⟩
  rcases exists_task?_of_roster hy with ⟨z, hz, rfl⟩
  exact ⟨z, hz, hxy⟩

theorem Coherent.after? [PatternLibrary] (h : c.Coherent) {e : Event}
    (hafter : c.after? e = some c') : c'.Coherent := by
  rcases exists_explains_of_after? h hafter with ⟨ls, hexplains⟩
  rcases orderly_transfer_of_after? h.sound hafter with ⟨new, _, htransfer, hnew⟩
  refine ⟨h.sound.after? hafter, ?_, hexplains.changes.typed h.typed⟩
  intro d hd
  rcases List.mem_append.mp (htransfer.deliveries_perm.mem_iff.mp hd) with hd | hd
  · rcases h.storage d hd with ⟨x, hx, hstorage⟩
    rcases later_task? hexplains.changes.later hx with ⟨y, hy, hlater⟩
    refine ⟨y, hy, ?_⟩
    -- A storage task stays one, so old deliveries are as before.
    rw [← Task.core_isStorage, hlater.isStorage_eq, Task.core_isStorage, hstorage]
  · exact hnew d hd

theorem roster_launch (s : Setup) (factories : List (String × Factory))
    (given : List StorageEngine) : (launch s factories given).roster = ⟨fun _ => none, []⟩ := by
  rw [roster_congr (backdrop_launch s factories given)]
  have htask : ∀ t, ((blank s).task? t).map Task.core = none := fun t => by simp [task?, blank]
  exact congrArg (Roster.mk · []) (funext htask)

theorem roster_build (s : Setup) : (build s).roster = ⟨fun _ => none, []⟩ :=
  roster_launch s _ _

theorem coherent_launch (s : Setup) (factories : List (String × Factory))
    (given : List StorageEngine) : (launch s factories given).Coherent := by
  refine ⟨sound_launch s factories given, ?_, ?_⟩
  · intro d hd
    rw [deliveries_launch] at hd
    cases hd
  · rw [roster_launch]
    exact ⟨(fun _ _ _ h => nomatch h), (fun _ h => nomatch h), (fun _ _ h => nomatch h),
      fun _ _ _ h => nomatch h⟩

theorem coherent_build (s : Setup) : (build s).Coherent :=
  coherent_launch s _ _

variable [PatternLibrary]

theorem Coherent.run? (h : c.Coherent) {events : List Event} (hrun : c.run? events = some c') :
    c'.Coherent :=
  run?_induction (P := Coherent) (A := fun _ => True) (fun _ h hafter => h.after? hafter)
    (fun _ _ => trivial) h hrun

theorem later_of_after? (h : c.Coherent) {e : Event} (hafter : c.after? e = some c') :
    c.roster.Later c'.roster := by
  rcases exists_explains_of_after? h hafter with ⟨ls, hexplains⟩
  exact hexplains.changes.later

/-- What every event keeps of a coherent cluster, a history keeps. -/
theorem Coherent.run?_induction {P : Cluster → Prop}
    (hstep : ∀ {c c' : Cluster} {e : Event}, c.Coherent → P c → c.after? e = some c' → P c')
    (h : c.Coherent) (hstart : P c) {events : List Event} (hrun : c.run? events = some c') :
    P c' := by
  have hboth : c'.Coherent ∧ P c' :=
    Cluster.run?_induction (P := fun c => c.Coherent ∧ P c) (A := fun _ => True)
      (fun _ hc hafter => ⟨hc.1.after? hafter, hstep hc.1 hc.2 hafter⟩) (fun _ _ => trivial)
      ⟨h, hstart⟩ hrun
  exact hboth.2

/-- A history takes nothing away that a task has. -/
theorem later_of_run? (h : c.Coherent) {events : List Event} (hrun : c.run? events = some c') :
    c.roster.Later c'.roster :=
  h.run?_induction (P := fun c' => c.roster.Later c'.roster)
    (fun hc hlater hafter => hlater.trans (later_of_after? hc hafter)) (.refl _) hrun

end Cluster
end SeriesExec
