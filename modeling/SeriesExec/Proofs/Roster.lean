import SeriesExec.Proofs.Views

/-!
# Roster — what tasks see of each other

A task depends on others only through their results, their followers and the memory stage.  How long
a task took and which unit took it matters to no other task, and it does not matter where in the
memory stage a task is.  This file defines:

* `Roster` — the tasks without those marks, and the tasks in the memory stage;
* `Roster.Label` and `Roster.Change` — everything that can happen to a roster, one thing at a time;
* `Roster.Changes` — several changes after one another;
* `Task.fedResult` — the result of a memory task from the results of its parents;
* `Task.Later` — what may have become of a task;
* `Roster.Typed` — followers and staged tasks are memory tasks, all of which are sync.

Main statements: no change takes a result or a follower away or turns a task into another one
(`Change.later`), and every change keeps the roster typed (`Change.typed`).
-/

namespace SeriesExec

namespace Shape

/-- Where a task runs, without the marks of the unit that took it. -/
def unmarked : Shape → Shape
  | .storage s => .storage { s with stamp := none, onDummy := false }
  | s => s

/-- Where a task runs, without anything that has happened there. -/
def origin : Shape → Shape
  | .storage s => .storage { s with stamp := none, onDummy := false }
  | .memory m => .memory { m with parents := [], ready := 0 }
  | .global => .global

end Shape

namespace Task

/-- All that matters of a task to others. -/
def core (x : Task) : Task :=
  { x with span := none, shape := x.shape.unmarked }

/-- The task as it was made, apart from its parents. -/
def origin (x : Task) : Task :=
  { x with result := none, span := none, follower := none, shape := x.shape.origin }

/-- Whether the task is released once all its parents have reported, and they have. -/
def wasReleased (x : Task) : Bool :=
  x.memory?.any fun m => decide (0 < m.required ∧ m.required ≤ m.ready)

variable (x : Task)

@[simp]
theorem core_result : x.core.result = x.result := rfl

@[simp]
theorem core_memory? : x.core.memory? = x.memory? := by
  rcases x with ⟨_, _, _, _, _, _, _ | _ | _⟩ <;> rfl

@[simp]
theorem core_isStorage : x.core.isStorage = x.isStorage := by
  rcases x with ⟨_, _, _, _, _, _, _ | _ | _⟩ <;> rfl

@[simp]
theorem core_isMemory : x.core.isMemory = x.isMemory := by
  rw [isMemory, core_memory?, isMemory]

@[simp]
theorem core_isGlobal : x.core.isGlobal = x.isGlobal := by
  rcases x with ⟨_, _, _, _, _, _, _ | _ | _⟩ <;> rfl

@[simp]
theorem core_isReleased : x.core.isReleased = x.isReleased := by
  rcases x with ⟨_, _, _, _, _, _, _ | _ | _⟩ <;> rfl

@[simp]
theorem core_setSpan (d : Duration) : (x.setSpan d).core = x.core := rfl

@[simp]
theorem core_stampUnit (u : UnitId) (isDummy : Bool) : (x.stampUnit u isDummy).core = x.core := by
  rcases x with ⟨_, _, _, _, _, _, _ | _ | _⟩ <;> rfl

@[simp]
theorem core_countParent : x.countParent.core = x.core.countParent := by
  rcases x with ⟨_, _, _, _, _, _, _ | _ | _⟩ <;> rfl

@[simp]
theorem core_forgetParents : x.forgetParents.core = x.core.forgetParents := by
  rcases x with ⟨_, _, _, _, _, _, _ | _ | _⟩ <;> rfl

/-! ## The result of a memory task -/

/-- The first error among results. -/
def firstError? (rs : List TaskResult) : Option Error :=
  rs.findSome? fun r =>
    match r with
    | .error e => some e
    | .ok _ => none

/-- The rows that results hand on, in their order. -/
def rowOutputs (rs : List TaskResult) : List RowStream :=
  rs.filterMap fun r =>
    match r with
    | .ok (.rows s) => some s
    | _ => none

/-- The result of operators over a source and over parents that have ended with `rs`. -/
def fedResult [PatternLibrary] (operators : List Operator) (source : Option RowStream)
    (rs : List TaskResult) : TaskResult :=
  match firstError? rs with
  | some e => .error (.parentFailed e)
  | none => (Pipeline.run operators (source.toList ++ rowOutputs rs)).map .rows

/-! ## What may become of a task -/

/-- What `y` is after something has happened to `x`: the same task, with everything it had. -/
structure Later (x y : Task) : Prop where
  origin : y.origin = x.origin
  result : ∀ r, x.result = some r → y.result = some r
  follower : ∀ f, x.follower = some f → y.follower = some f
  memory : ∀ m, x.memory? = some m → ∃ m', y.memory? = some m' ∧ m'.required = m.required ∧
    m'.source = m.source ∧ m.ready ≤ m'.ready

variable {x} {y z : Task}

theorem Later.refl (x : Task) : x.Later x :=
  ⟨rfl, fun _ => id, fun _ => id, fun m hm => ⟨m, hm, rfl, rfl, Nat.le_refl _⟩⟩

theorem Later.trans (h : x.Later y) (h' : y.Later z) : x.Later z where
  origin := h'.origin.trans h.origin
  result r hr := h'.result r (h.result r hr)
  follower f hf := h'.follower f (h.follower f hf)
  memory m hm := by
    -- The counts only grow; what is required and the source never change.
    rcases h.memory m hm with ⟨m₁, hm₁, hrequired, hsource, hready⟩
    rcases h'.memory m₁ hm₁ with ⟨m₂, hm₂, hrequired', hsource', hready'⟩
    exact ⟨m₂, hm₂, hrequired'.trans hrequired, hsource'.trans hsource, Nat.le_trans hready hready'⟩

theorem later_setResult (x : Task) (r : TaskResult) : x.Later (x.setResult r) :=
  ⟨rfl, fun r' hr' => by simp [setResult, hr'], fun _ => id, (Later.refl x).memory⟩

theorem later_setFollower (x : Task) (f : TaskId) : x.Later (x.setFollower f) :=
  ⟨rfl, fun _ => id, fun f' hf' => by simp [setFollower, hf'], (Later.refl x).memory⟩

theorem later_countParent (x : Task) : x.Later x.countParent := by
  rcases x with ⟨_, _, _, _, _, _, _ | m | _⟩
  · exact .refl _
  · refine ⟨rfl, fun _ => id, fun _ => id, fun m' hm' => ⟨_, rfl, ?_⟩⟩
    obtain rfl : m = m' := Option.some.inj hm'
    exact ⟨rfl, rfl, Nat.le_succ _⟩
  · exact .refl _

theorem later_forgetParents (x : Task) : x.Later x.forgetParents := by
  rcases x with ⟨_, _, _, _, _, _, _ | m | _⟩
  · exact .refl _
  · refine ⟨rfl, fun _ => id, fun _ => id, fun m' hm' => ⟨_, rfl, ?_⟩⟩
    obtain rfl : m = m' := Option.some.inj hm'
    exact ⟨rfl, rfl, Nat.le_refl _⟩
  · exact .refl _

theorem Later.isSync_eq (h : x.Later y) : y.isSync = x.isSync :=
  show y.origin.isSync = x.origin.isSync from h.origin ▸ rfl

theorem Later.broadcasts_eq (h : x.Later y) : y.broadcasts = x.broadcasts :=
  show y.origin.broadcasts = x.origin.broadcasts from h.origin ▸ rfl

theorem Later.operators_eq (h : x.Later y) : y.operators = x.operators :=
  show y.origin.operators = x.origin.operators from h.origin ▸ rfl

theorem isStorage_origin (x : Task) : x.origin.isStorage = x.isStorage := by
  rcases x with ⟨_, _, _, _, _, _, _ | _ | _⟩ <;> rfl

theorem isMemory_origin (x : Task) : x.origin.isMemory = x.isMemory := by
  rcases x with ⟨_, _, _, _, _, _, _ | _ | _⟩ <;> rfl

/-- The three kinds of tasks exclude each other. -/
theorem isGlobal_eq_false {x : Task} (h : x.isStorage = true ∨ x.isMemory = true) :
    x.isGlobal = false := by
  rcases x with ⟨_, _, _, _, _, _, _ | _ | _⟩
  · rfl
  · rfl
  · rcases h with h | h <;> cases h

theorem isGlobal_origin (x : Task) : x.origin.isGlobal = x.isGlobal := by
  rcases x with ⟨_, _, _, _, _, _, _ | _ | _⟩ <;> rfl

theorem Later.isStorage_eq (h : x.Later y) : y.isStorage = x.isStorage := by
  rw [← isStorage_origin, h.origin, isStorage_origin]

theorem Later.isMemory_eq (h : x.Later y) : y.isMemory = x.isMemory := by
  rw [← isMemory_origin, h.origin, isMemory_origin]

theorem Later.isGlobal_eq (h : x.Later y) : y.isGlobal = x.isGlobal := by
  rw [← isGlobal_origin, h.origin, isGlobal_origin]

/-- A task that has just been made: it waits for nobody, and nobody waits for it. -/
structure IsNew (x : Task) : Prop where
  result : x.result = none
  follower : x.follower = none
  sync : x.isMemory → x.isSync
  unfed : ∀ m, x.memory? = some m → m.required = 0

theorem isNew_core_new (operators : List Operator) (isSync broadcasts : Bool) {shape : Shape}
    (hshape : ∀ m, shape = .memory m → isSync ∧ m.required = 0) :
    (new operators isSync broadcasts shape).core.IsNew := by
  refine ⟨rfl, rfl, ?_, ?_⟩
  · intro hmemory
    cases shape with
    | memory m => exact (hshape m rfl).1
    | _ => cases hmemory
  · intro m hm
    cases shape with
    | memory m' =>
      obtain rfl : m' = m := Option.some.inj hm
      exact (hshape m' rfl).2
    | _ => cases hm

end Task

/-- The tasks as others see them, and those in the memory stage. -/
structure Roster where
  task? : TaskId → Option Task
  staged : List TaskId

namespace Cluster

/-- The tasks in the memory stage, wherever in it they are. -/
def staged (c : Cluster) : List TaskId :=
  c.memory.queue.items ++ c.memory.waiting.items ++ c.memory.running

def roster (c : Cluster) : Roster :=
  ⟨fun t => (c.task? t).map Task.core, c.staged⟩

end Cluster

namespace Roster

/-- The roster with one task changed. -/
def modify (ρ : Roster) (t : TaskId) (g : Task → Task) : Roster :=
  { ρ with task? := fun i => if i = t then (ρ.task? i).map g else ρ.task? i }

theorem task?_modify (ρ : Roster) (t i : TaskId) (g : Task → Task) :
    (ρ.modify t g).task? i = if i = t then (ρ.task? i).map g else ρ.task? i := rfl

theorem modify_modify (ρ : Roster) (t : TaskId) (g g' : Task → Task) :
    (ρ.modify t g).modify t g' = ρ.modify t fun x => g' (g x) := by
  have htask : ((ρ.modify t g).modify t g').task? = (ρ.modify t fun x => g' (g x)).task? := by
    funext i
    -- Both sides change `t` and nothing else.
    by_cases hi : i = t
    · simp only [task?_modify, hi, if_true, Option.map_map]
      rfl
    · simp only [task?_modify, hi, if_false]
  exact congrArg (Roster.mk · ρ.staged) htask

/-- The follower that learns of the end of a task. -/
def informed? (ρ : Roster) (t : TaskId) : Option TaskId :=
  (ρ.task? t).bind fun x => if x.isSync then x.follower else none

/-- The roster after a follower has learnt of the end of a parent.  It comes to the memory stage if
that releases it. -/
def inform (ρ : Roster) : Option TaskId → Roster
  | none => ρ
  | some f =>
    let told := ρ.modify f Task.countParent
    { told with staged := told.staged ++ if (told.task? f).any Task.isReleased then [f] else [] }

/-- The roster after a task has ended. -/
def finish (ρ : Roster) (t : TaskId) (g : Task → Task) : Roster :=
  (ρ.modify t g).inform (ρ.informed? t)

/-- What happens to a roster. -/
inductive Label where
  /-- Nothing that any other task sees. -/
  | quiet
  /-- A task is made. -/
  | made
  /-- A follower is made. -/
  | linked
  /-- A task is put into the memory stage from outside. -/
  | added (t : TaskId)
  /-- A task over the cluster gets its result. -/
  | told
  /-- A storage task ends. -/
  | settled (t : TaskId) (r : TaskResult)
  /-- A memory task ends. -/
  | ran (t : TaskId) (r : TaskResult)
  /-- A task is changed from outside, except for its result. -/
  | byHand
  /-- A task gets its result from outside. -/
  | forced

/-- The roster after a follower has been made and its parents, all free to take it, know it. -/
structure Linked (ρ ρ' : Roster) (f : TaskId) (operators : List Operator) (parents : List TaskId) :
    Prop where
  new : ρ.task? f = none
  nodup : parents.Nodup
  free : ∀ p ∈ parents, ∃ x, ρ.task? p = some x ∧ x.follower = none
  self : ρ'.task? f = some (Task.newFollower operators parents)
  parent : ∀ p ∈ parents, ρ'.task? p = (ρ.task? p).map fun x => x.setFollower f
  other : ∀ i, i ≠ f → i ∉ parents → ρ'.task? i = ρ.task? i
  staged : ρ'.staged = ρ.staged

/-- One change of a roster. -/
inductive Change [PatternLibrary] (ρ ρ' : Roster) : Label → Prop
  | quiet (htask : ρ'.task? = ρ.task?) (hstaged : ρ'.staged.Perm ρ.staged) : Change ρ ρ' .quiet
  | made (t : TaskId) (x : Task) (hnew : ρ.task? t = none) (hx : x.IsNew)
      (hself : ρ'.task? t = some x) (hother : ∀ i, i ≠ t → ρ'.task? i = ρ.task? i)
      (hstaged : ρ'.staged = ρ.staged) : Change ρ ρ' .made
  | linked (f : TaskId) (operators : List Operator) (parents : List TaskId)
      (h : Linked ρ ρ' f operators parents) : Change ρ ρ' .linked
  | added (t : TaskId) (x : Task) (hx : ρ.task? t = some x) (hmemory : x.isMemory)
      (htask : ρ'.task? = ρ.task?) (hstaged : ρ'.staged.Perm (t :: ρ.staged)) :
      Change ρ ρ' (.added t)
  | told (t : TaskId) (x : Task) (r : TaskResult) (hx : ρ.task? t = some x) (hglobal : x.isGlobal)
      (h : ρ' = ρ.modify t fun x => x.setResult r) : Change ρ ρ' .told
  | settled (t : TaskId) (x : Task) (r : TaskResult) (hx : ρ.task? t = some x)
      (hstorage : x.isStorage) (htask : ρ'.task? = (ρ.finish t fun x => x.setResult r).task?)
      (hstaged : ρ'.staged.Perm (ρ.finish t fun x => x.setResult r).staged) :
      Change ρ ρ' (.settled t r)
  | ran (t : TaskId) (x : Task) (r : TaskResult) (hx : ρ.task? t = some x)
      (hmemory : x.isMemory)
      (hresult : ∀ m rs, x.memory? = some m →
        (m.parents.map fun p => (ρ.task? p).bind Task.result) = rs.map some →
          r = Task.fedResult x.operators m.source rs)
      (htask : ρ'.task? = (ρ.finish t fun x => x.forgetParents.setResult r).task?)
      (hstaged : (t :: ρ'.staged).Perm (ρ.finish t fun x => x.forgetParents.setResult r).staged) :
      Change ρ ρ' (.ran t r)
  | byHand (t : TaskId) (g : Task → Task) (hlater : ∀ x : Task, x.Later (g x))
      (hresult : ∀ x, (g x).result = x.result)
      (hfollower : ∀ x f, (g x).follower = some f →
        x.follower = some f ∨ ∃ y, ρ.task? f = some y ∧ y.isMemory)
      (h : ρ' = ρ.modify t g) : Change ρ ρ' .byHand
  | forced (t : TaskId) (r : TaskResult) (h : ρ' = ρ.modify t fun x => x.setResult r) :
      Change ρ ρ' .forced

/-- Several changes after one another. -/
inductive Changes [PatternLibrary] : Roster → Roster → List Label → Prop
  | nil (ρ : Roster) : Changes ρ ρ []
  | cons {ρ ρ₁ ρ' : Roster} {l : Label} {ls : List Label} (first : Change ρ ρ₁ l)
      (rest : Changes ρ₁ ρ' ls) : Changes ρ ρ' (l :: ls)

variable {ρ ρ₁ ρ' : Roster}

theorem Changes.append [PatternLibrary] {ls ls' : List Label} (h : Changes ρ ρ₁ ls)
    (h' : Changes ρ₁ ρ' ls') : Changes ρ ρ' (ls ++ ls') := by
  induction h with
  | nil => exact h'
  | cons first _ ih => exact .cons first (ih h')

theorem Change.single [PatternLibrary] {l : Label} (h : Change ρ ρ' l) : Changes ρ ρ' [l] :=
  .cons h (.nil ρ')

theorem ne_of_task?_eq_none {t i : TaskId} {y : Task} (hnew : ρ.task? t = none)
    (hy : ρ.task? i = some y) : i ≠ t := by
  rintro rfl
  exact Option.some_ne_none y (hy.symm.trans hnew)

/-- A task of a roster in which one has been made is the new one, or it was there before. -/
theorem task?_of_made {t i : TaskId} {x y : Task} (hself : ρ'.task? t = some x)
    (hother : ∀ i, i ≠ t → ρ'.task? i = ρ.task? i) (hy : ρ'.task? i = some y) :
    i = t ∧ y = x ∨ ρ.task? i = some y := by
  by_cases hi : i = t
  · subst hi
    exact .inl ⟨rfl, Option.some.inj (hy.symm.trans hself)⟩
  · exact .inr (hother i hi ▸ hy)

/-- A task of a roster in which a follower has been made is the follower, or one of its parents, or
it was there before. -/
theorem Linked.task?_cases {f i : TaskId} {operators : List Operator} {parents : List TaskId}
    {y : Task} (h : Linked ρ ρ' f operators parents) (hy : ρ'.task? i = some y) :
    i = f ∧ y = Task.newFollower operators parents ∨
      (∃ x, i ∈ parents ∧ ρ.task? i = some x ∧ x.follower = none ∧ y = x.setFollower f) ∨
      i ∉ parents ∧ ρ.task? i = some y := by
  by_cases hif : i = f
  · subst hif
    exact .inl ⟨rfl, Option.some.inj (hy.symm.trans h.self)⟩
  · by_cases hp : i ∈ parents
    · rcases h.free i hp with ⟨x, hx, hfree⟩
      rw [h.parent i hp, hx] at hy
      exact .inr (.inl ⟨x, hp, hx, hfree, (Option.some.inj hy).symm⟩)
    · exact .inr (.inr ⟨hp, h.other i hif hp ▸ hy⟩)

/-! ## What no change takes away -/

/-- Every task of the one roster is in the other, with everything it had. -/
def Later (ρ ρ' : Roster) : Prop :=
  ∀ t x, ρ.task? t = some x → ∃ y, ρ'.task? t = some y ∧ x.Later y

theorem Later.refl (ρ : Roster) : ρ.Later ρ := fun _ x hx => ⟨x, hx, .refl x⟩

theorem Later.trans (h : ρ.Later ρ₁) (h' : ρ₁.Later ρ') : ρ.Later ρ' := by
  intro t x hx
  rcases h t x hx with ⟨y, hy, hxy⟩
  rcases h' t y hy with ⟨z, hz, hyz⟩
  exact ⟨z, hz, hxy.trans hyz⟩

theorem later_of_task? (h : ρ'.task? = ρ.task?) : ρ.Later ρ' := fun _ x hx =>
  ⟨x, h ▸ hx, .refl x⟩

theorem later_modify (t : TaskId) {g : Task → Task} (hg : ∀ x : Task, x.Later (g x)) :
    ρ.Later (ρ.modify t g) := by
  intro i x hx
  by_cases hi : i = t
  · subst hi
    exact ⟨g x, by rw [task?_modify, if_pos rfl, hx, Option.map_some], hg x⟩
  · exact ⟨x, by rw [task?_modify, if_neg hi, hx], .refl x⟩

theorem later_finish (t : TaskId) {g : Task → Task} (hg : ∀ x : Task, x.Later (g x)) :
    ρ.Later (ρ.finish t g) := by
  unfold finish
  cases ρ.informed? t with
  | none => exact later_modify t hg
  | some f => exact (later_modify t hg).trans (later_modify f Task.later_countParent)

theorem Change.later [PatternLibrary] {l : Label} (h : Change ρ ρ' l) : ρ.Later ρ' := by
  cases h with
  | quiet htask => exact later_of_task? htask
  | made t x hnew _ _ hother =>
    intro i y hy
    -- The new task took a number that nobody had.
    refine ⟨y, ?_, .refl y⟩
    rw [hother i (ne_of_task?_eq_none hnew hy), hy]
  | linked f operators parents h =>
    intro i y hy
    -- Parents get a follower, all others stay as they are.
    by_cases hi : i ∈ parents
    · exact ⟨y.setFollower f, by rw [h.parent i hi, hy, Option.map_some],
        Task.later_setFollower y f⟩
    · refine ⟨y, ?_, .refl y⟩
      rw [h.other i (ne_of_task?_eq_none h.new hy) hi, hy]
  | added _ _ _ _ htask => exact later_of_task? htask
  | told t x r _ _ h => exact h ▸ later_modify t fun x => Task.later_setResult x r
  | settled t x r _ _ htask =>
    exact (later_finish t fun x => Task.later_setResult x r).trans (later_of_task? htask)
  | ran t x r _ _ _ htask =>
    refine (later_finish t ?_).trans (later_of_task? htask)
    intro x
    exact (Task.later_forgetParents x).trans (Task.later_setResult _ r)
  | byHand t g hlater _ _ h => exact h ▸ later_modify t hlater
  | forced t r h => exact h ▸ later_modify t fun x => Task.later_setResult x r

theorem Changes.later [PatternLibrary] {ls : List Label} (h : Changes ρ ρ' ls) : ρ.Later ρ' := by
  induction h with
  | nil => exact Later.refl _
  | cons first _ ih => exact first.later.trans ih

/-! ## Followers and staged tasks -/

/-- The task is there, and it is a memory task. -/
def HasMemory (ρ : Roster) (t : TaskId) : Prop :=
  ∃ x, ρ.task? t = some x ∧ x.isMemory

/-- The task is there, and it is a storage task. -/
def HasStorage (ρ : Roster) (t : TaskId) : Prop :=
  ∃ x, ρ.task? t = some x ∧ x.isStorage

theorem HasMemory.later {t : TaskId} (h : ρ.HasMemory t) (hlater : ρ.Later ρ') :
    ρ'.HasMemory t := by
  rcases h with ⟨x, hx, hmemory⟩
  rcases hlater t x hx with ⟨y, hy, hxy⟩
  exact ⟨y, hy, hxy.isMemory_eq ▸ hmemory⟩

theorem HasStorage.later {t : TaskId} (h : ρ.HasStorage t) (hlater : ρ.Later ρ') :
    ρ'.HasStorage t := by
  rcases h with ⟨x, hx, hstorage⟩
  rcases hlater t x hx with ⟨y, hy, hxy⟩
  exact ⟨y, hy, hxy.isStorage_eq ▸ hstorage⟩

theorem HasStorage.not_hasMemory {t : TaskId} (h : ρ.HasStorage t) : ¬ρ.HasMemory t := by
  rintro ⟨y, hy, hmemory⟩
  rcases h with ⟨x, hx, hstorage⟩
  rcases Option.some.inj (hx.symm.trans hy) with rfl
  rcases x with ⟨_, _, _, _, _, _, _ | _ | _⟩
  · cases hmemory
  · cases hstorage
  · cases hstorage

/-- A task that is a storage or a memory task is not one over the cluster. -/
theorem isGlobal_eq_false {t : TaskId} (h : ρ.HasStorage t ∨ ρ.HasMemory t) :
    ∀ y, ρ.task? t = some y → y.isGlobal = false := by
  intro y hy
  rcases h with ⟨x, hx, hx'⟩ | ⟨x, hx, hx'⟩ <;> obtain rfl := Option.some.inj (hx.symm.trans hy)
  · exact Task.isGlobal_eq_false (.inl hx')
  · exact Task.isGlobal_eq_false (.inr hx')

/-- Followers and staged tasks are memory tasks.  All memory tasks are sync, and those with a source
wait for no parents. -/
structure Typed (ρ : Roster) : Prop where
  followers : ∀ t x f, ρ.task? t = some x → x.follower = some f → ρ.HasMemory f
  staged : ∀ t ∈ ρ.staged, ρ.HasMemory t
  sync : ∀ t x, ρ.task? t = some x → x.isMemory → x.isSync
  unfed : ∀ t x m, ρ.task? t = some x → x.memory? = some m → m.source.isSome → m.required = 0

/-- What keeps all tasks keeps the roster typed, if new followers, staged tasks and tasks are as
they should be. -/
theorem Typed.of_later (h : ρ.Typed) (hlater : ρ.Later ρ')
    (hfollowers : ∀ t y f, ρ'.task? t = some y → y.follower = some f →
      (∃ x, ρ.task? t = some x ∧ x.follower = some f) ∨ ρ'.HasMemory f)
    (hstaged : ∀ t ∈ ρ'.staged, t ∈ ρ.staged ∨ ρ'.HasMemory t)
    (hnew : ∀ t y, ρ.task? t = none → ρ'.task? t = some y → (y.isMemory → y.isSync) ∧
      ∀ m, y.memory? = some m → m.source.isSome → m.required = 0) :
    ρ'.Typed where
  followers t y f hy hf := by
    rcases hfollowers t y f hy hf with ⟨x, hx, hf⟩ | hmemory
    · exact (h.followers t x f hx hf).later hlater
    · exact hmemory
  staged t ht := (hstaged t ht).elim (fun ht => (h.staged t ht).later hlater) id
  sync t y hy hmemory := by
    cases hx : ρ.task? t with
    | none => exact (hnew t y hx hy).1 hmemory
    | some x =>
      rcases hlater t x hx with ⟨y', hy', hxy⟩
      obtain rfl : y = y' := Option.some.inj (hy.symm.trans hy')
      rw [hxy.isSync_eq]
      exact h.sync t x hx (hxy.isMemory_eq ▸ hmemory)
  unfed t y m hy hm hsource := by
    cases hx : ρ.task? t with
    | none => exact (hnew t y hx hy).2 m hm hsource
    | some x =>
      rcases hlater t x hx with ⟨y', hy', hxy⟩
      obtain rfl : y = y' := Option.some.inj (hy.symm.trans hy')
      -- The task was a memory task already, and with the same source.
      obtain ⟨m₀, hm₀⟩ : ∃ m₀, x.memory? = some m₀ := by
        have hmemory : x.isMemory := hxy.isMemory_eq ▸ Option.isSome_iff_exists.mpr ⟨m, hm⟩
        exact Option.isSome_iff_exists.mp hmemory
      rcases hxy.memory m₀ hm₀ with ⟨m', hm', hrequired, hsource', _⟩
      obtain rfl : m = m' := Option.some.inj (hm.symm.trans hm')
      exact hrequired.trans (h.unfed t x m₀ hx hm₀ (hsource' ▸ hsource))

theorem exists_task?_of_modify {t i : TaskId} {g : Task → Task} {y : Task}
    (hy : (ρ.modify t g).task? i = some y) :
    ∃ x, ρ.task? i = some x ∧ (y = x ∨ i = t ∧ y = g x) := by
  by_cases hi : i = t
  · subst hi
    rw [task?_modify, if_pos rfl] at hy
    rcases Option.map_eq_some_iff.mp hy with ⟨x, hx, rfl⟩
    exact ⟨x, hx, .inr ⟨rfl, rfl⟩⟩
  · rw [task?_modify, if_neg hi] at hy
    exact ⟨y, hy, .inl rfl⟩

theorem exists_follower_of_finish {t i : TaskId} {g : Task → Task} {y : Task}
    (hg : ∀ x, (g x).follower = x.follower) (hy : (ρ.finish t g).task? i = some y) :
    ∃ x, ρ.task? i = some x ∧ x.follower = y.follower := by
  -- Both changes that an end brings, to the task and to its follower, keep all followers.
  have hmodify : ∀ {ρ : Roster} {t : TaskId} {g : Task → Task} {y : Task},
      (∀ x, (g x).follower = x.follower) → (ρ.modify t g).task? i = some y →
        ∃ x, ρ.task? i = some x ∧ x.follower = y.follower := by
    intro ρ t g y hg hy
    rcases exists_task?_of_modify hy with ⟨x, hx, rfl | ⟨_, rfl⟩⟩
    · exact ⟨y, hx, rfl⟩
    · exact ⟨x, hx, (hg x).symm⟩
  unfold finish at hy
  cases hinformed : ρ.informed? t with
  | none =>
    rw [hinformed] at hy
    exact hmodify hg hy
  | some f =>
    rw [hinformed] at hy
    obtain ⟨x, hx, hfollower⟩ := hmodify (g := Task.countParent) (fun x => by
      rcases x with ⟨_, _, _, _, _, _, _ | _ | _⟩ <;> rfl) hy
    rcases hmodify hg hx with ⟨x', hx', hfollower'⟩
    exact ⟨x', hx', hfollower'.trans hfollower⟩

theorem mem_staged_finish {t i : TaskId} {g : Task → Task} (hi : i ∈ (ρ.finish t g).staged) :
    i ∈ ρ.staged ∨ ρ.informed? t = some i := by
  -- Only the follower that is told can come to the memory stage.
  unfold finish at hi
  cases hinformed : ρ.informed? t with
  | none =>
    rw [hinformed] at hi
    exact .inl hi
  | some f =>
    rw [hinformed] at hi
    rcases List.mem_append.mp hi with hi | hi
    · exact .inl hi
    · split at hi
      · exact .inr (congrArg some (List.mem_singleton.mp hi).symm)
      · cases hi

theorem Typed.informed (h : ρ.Typed) {t f : TaskId} (hinformed : ρ.informed? t = some f) :
    ρ.HasMemory f := by
  rcases Option.bind_eq_some_iff.mp hinformed with ⟨x, hx, hf⟩
  split at hf
  · exact h.followers t x f hx hf
  · cases hf

/-- The end of a task keeps the roster typed. -/
theorem Typed.finish (h : ρ.Typed) {t : TaskId} {g : Task → Task}
    (hlater : ∀ x : Task, x.Later (g x)) (hg : ∀ x, (g x).follower = x.follower)
    (htask : ρ'.task? = (ρ.finish t g).task?)
    (hstaged : ∀ i ∈ ρ'.staged, i ∈ (ρ.finish t g).staged) : ρ'.Typed := by
  -- An end makes no task, so what is asked of new ones holds for want of any.
  have hkeep : ρ.Later ρ' := (later_finish t hlater).trans (later_of_task? htask)
  refine h.of_later hkeep ?_ ?_ ?_
  · intro i y f hy hf
    rcases exists_follower_of_finish hg (htask ▸ hy) with ⟨x, hx, hfollower⟩
    exact .inl ⟨x, hx, hfollower.trans hf⟩
  · intro i hi
    exact (mem_staged_finish (hstaged i hi)).imp_right fun hinformed =>
      (h.informed hinformed).later hkeep
  · intro i y hx hy
    rcases exists_follower_of_finish hg (htask ▸ hy) with ⟨x, hx', _⟩
    exact absurd (hx.symm.trans hx') (Option.some_ne_none x).symm

theorem Typed.modify (h : ρ.Typed) {t : TaskId} {g : Task → Task}
    (hlater : ∀ x : Task, x.Later (g x))
    (hg : ∀ x f, (g x).follower = some f → x.follower = some f ∨ ρ.HasMemory f) :
    (ρ.modify t g).Typed := by
  refine h.of_later (later_modify t hlater) ?_ (fun i hi => .inl hi) ?_
  · intro i y f hy hf
    rcases exists_task?_of_modify hy with ⟨x, hx, rfl | ⟨_, rfl⟩⟩
    · exact .inl ⟨y, hx, hf⟩
    · exact (hg x f hf).imp (fun hf => ⟨x, hx, hf⟩) fun hf => hf.later (later_modify t hlater)
  · intro i y hx hy
    rcases exists_task?_of_modify hy with ⟨x, hx', _⟩
    exact absurd (hx.symm.trans hx') (Option.some_ne_none x).symm

/-- A new task has no follower and waits for nobody. -/
theorem Typed.made (h : ρ.Typed) (hlater : ρ.Later ρ') {t : TaskId} {x : Task} (hx : x.IsNew)
    (hself : ρ'.task? t = some x) (hother : ∀ i, i ≠ t → ρ'.task? i = ρ.task? i)
    (hstaged : ρ'.staged = ρ.staged) : ρ'.Typed := by
  refine h.of_later hlater ?_ (fun i hi => .inl (hstaged ▸ hi)) ?_
  · intro i y f hy hf
    rcases task?_of_made hself hother hy with ⟨_, rfl⟩ | hy
    · exact absurd (hx.follower.symm.trans hf) (Option.some_ne_none f).symm
    · exact .inl ⟨y, hy, hf⟩
  · intro i y hi hy
    rcases task?_of_made hself hother hy with ⟨_, rfl⟩ | hy
    · exact ⟨hx.sync, fun m hm _ => hx.unfed m hm⟩
    · exact absurd (hi.symm.trans hy) (Option.some_ne_none y).symm

/-- A new follower has no source, and its parents take it as their first follower. -/
theorem Typed.linked (h : ρ.Typed) (hlater : ρ.Later ρ') {f : TaskId} {operators : List Operator}
    {parents : List TaskId} (hlinked : Linked ρ ρ' f operators parents) : ρ'.Typed := by
  have hmemory : ρ'.HasMemory f := ⟨_, hlinked.self, rfl⟩
  refine h.of_later hlater ?_ (fun i hi => .inl (hlinked.staged ▸ hi)) ?_
  · intro i y g hy hg
    rcases hlinked.task?_cases hy with ⟨_, rfl⟩ | ⟨x, _, _, hfree, rfl⟩ | ⟨_, hy⟩
    · cases hg
    · simp only [Task.setFollower, hfree, Option.none_or, Option.some.injEq] at hg
      exact .inr (hg ▸ hmemory)
    · exact .inl ⟨y, hy, hg⟩
  · intro i y hi hy
    rcases hlinked.task?_cases hy with ⟨_, rfl⟩ | ⟨x, _, hx, _⟩ | ⟨_, hy⟩
    · refine ⟨fun _ => rfl, ?_⟩
      intro m hm hsource
      rcases Option.some.inj hm with rfl
      cases hsource
    · exact absurd (hi.symm.trans hx) (Option.some_ne_none x).symm
    · exact absurd (hi.symm.trans hy) (Option.some_ne_none y).symm

variable [PatternLibrary]

theorem Change.typed {l : Label} (h : Change ρ ρ' l) (htyped : ρ.Typed) : ρ'.Typed := by
  have hlater := h.later
  cases h with
  | quiet htask hstaged =>
    exact htyped.of_later hlater (fun t y f hy hf => .inl ⟨y, htask ▸ hy, hf⟩)
      (fun t ht => .inl (hstaged.mem_iff.mp ht))
      fun t y hx hy => absurd (hx.symm.trans (htask ▸ hy)) (Option.some_ne_none y).symm
  | made t x _ hx hself hother hstaged => exact htyped.made hlater hx hself hother hstaged
  | linked f operators parents h => exact htyped.linked hlater h
  | added t x hx hmemory htask hstaged =>
    refine htyped.of_later hlater (fun t y f hy hf => .inl ⟨y, htask ▸ hy, hf⟩) ?_
      fun t y hx hy => absurd (hx.symm.trans (htask ▸ hy)) (Option.some_ne_none y).symm
    intro i hi
    rcases List.mem_cons.mp (hstaged.mem_iff.mp hi) with rfl | hi
    · exact .inr (HasMemory.later ⟨x, hx, hmemory⟩ hlater)
    · exact .inl hi
  | told t x r _ _ h =>
    exact h ▸ htyped.modify (fun x => Task.later_setResult x r) fun x f hf => .inl hf
  | settled t x r _ _ htask hstaged =>
    exact htyped.finish (fun x => Task.later_setResult x r) (fun _ => rfl) htask
      fun i hi => hstaged.mem_iff.mp hi
  | ran t x r _ _ _ htask hstaged =>
    refine htyped.finish (fun x => (Task.later_forgetParents x).trans (Task.later_setResult _ r))
      ?_ htask fun i hi => hstaged.mem_iff.mp (List.mem_cons_of_mem t hi)
    intro x
    rcases x with ⟨_, _, _, _, _, _, _ | _ | _⟩ <;> rfl
  | byHand t g hkeep _ hfollower h => exact h ▸ htyped.modify hkeep hfollower
  | forced t r h =>
    exact h ▸ htyped.modify (fun x => Task.later_setResult x r) fun x f hf => .inl hf

theorem Changes.typed {ls : List Label} (h : Changes ρ ρ' ls) (htyped : ρ.Typed) : ρ'.Typed := by
  induction h with
  | nil => exact htyped
  | cons first _ ih => exact ih (first.typed htyped)

end Roster
end SeriesExec
