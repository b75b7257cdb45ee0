import SeriesExec.Proofs.Results

/-!
# Release — what followers learn, and when they run

A follower counts how often its parents report, and comes to the memory stage when the count reaches
the number of parents.  This file defines:

* `Roster.credit` — one for a task whose parents have reported often enough, zero for any other;
* `Roster.Fed` — a follower, its operators and its parents;
* `Roster.reports` — whether the end of a task is reported to a follower with given parents.

Main statements: a task has run or is staged as often as it was added from outside and released
(`Changes.balance`), and a follower counts the ends of its sync parents (`Changes.ready_eq`).
-/

namespace SeriesExec

namespace Roster

variable {ρ ρ₁ ρ' : Roster}

/-! ## Running and releasing -/

/-- One for a task whose parents have reported often enough, zero for any other. -/
def credit (ρ : Roster) (t : TaskId) : Nat :=
  if (ρ.task? t).any Task.wasReleased then 1 else 0

theorem credit_le_one (ρ : Roster) (t : TaskId) : ρ.credit t ≤ 1 := by
  unfold credit
  split <;> omega

theorem credit_eq_zero {t : TaskId} (h : ∀ x, ρ.task? t = some x → x.wasReleased = false) :
    ρ.credit t = 0 := by
  unfold credit
  cases hx : ρ.task? t with
  | none => rfl
  | some x => simp [h x hx]

theorem credit_of_task? (h : ρ'.task? = ρ.task?) (t : TaskId) : ρ'.credit t = ρ.credit t := by
  rw [credit, h, credit]

theorem wasReleased_setResult (x : Task) (r : TaskResult) :
    (x.setResult r).wasReleased = x.wasReleased := rfl

theorem wasReleased_forgetParents (x : Task) : x.forgetParents.wasReleased = x.wasReleased := by
  rcases x with ⟨_, _, _, _, _, _, _ | _ | _⟩ <;> rfl

theorem credit_modify {t : TaskId} {g : Task → Task} (hg : ∀ x, (g x).wasReleased = x.wasReleased)
    (i : TaskId) : (ρ.modify t g).credit i = ρ.credit i := by
  rw [credit, task?_modify, credit]
  cases ρ.task? i with
  | none => simp
  | some x => by_cases hi : i = t <;> simp [hi, hg]

/-- A task that is informed comes to the memory stage exactly when it gets its credit. -/
theorem balance_inform (ρ : Roster) (f? : Option TaskId) (t : TaskId) :
    (ρ.inform f?).staged.count t + ρ.credit t = ρ.staged.count t + (ρ.inform f?).credit t := by
  cases f? with
  | none => rfl
  | some f =>
    have htold : (ρ.inform (some f)).credit t = (ρ.modify f Task.countParent).credit t := rfl
    have hstaged : (ρ.inform (some f)).staged = ρ.staged ++
        if ((ρ.modify f Task.countParent).task? f).any Task.isReleased then [f] else [] := rfl
    rw [htold, hstaged, List.count_append, credit, credit, task?_modify, task?_modify, if_pos rfl]
    -- Only the count of `f` changes: it gets its credit when the count becomes what is required,
    -- which is also when it is staged.
    by_cases ht : t = f
    · subst ht
      cases hx : ρ.task? t with
      | none => simp
      | some x =>
        rcases x with ⟨_, _, _, _, _, _, _ | m | _⟩
        · simp [Task.countParent, Task.isReleased]
        · simp only [if_true, Option.map_some, Option.any_some, Task.countParent, Task.isReleased,
            Task.wasReleased, Task.memory?, beq_iff_eq, decide_eq_true_eq]
          split <;> split <;> split <;> simp <;> omega
        · simp [Task.countParent, Task.isReleased]
    · have hcount : List.count t
          (if ((ρ.task? f).map Task.countParent).any Task.isReleased then [f] else []) = 0 := by
        split <;> simp [Ne.symm ht]
      rw [hcount, if_neg ht, Nat.add_zero]

theorem balance_finish (ρ : Roster) (t i : TaskId) {g : Task → Task}
    (hg : ∀ x, (g x).wasReleased = x.wasReleased) :
    (ρ.finish t g).staged.count i + ρ.credit i =
      ρ.staged.count i + (ρ.finish t g).credit i := by
  rw [finish, ← credit_modify (t := t) hg i]
  exact balance_inform (ρ.modify t g) (ρ.informed? t) i

/-- A new task waits for nobody, so nothing can have released it. -/
theorem credit_made {i : TaskId} {x : Task} (hnew : ρ.task? i = none) (hx : x.IsNew)
    (hself : ρ'.task? i = some x) (hother : ∀ t, t ≠ i → ρ'.task? t = ρ.task? t) (t : TaskId) :
    ρ'.credit t = ρ.credit t := by
  by_cases hi : t = i
  · subst hi
    rw [credit_eq_zero fun y hy => absurd (hnew.symm.trans hy) (Option.some_ne_none y).symm]
    refine credit_eq_zero ?_
    intro y hy
    rcases Option.some.inj (hself.symm.trans hy) with rfl
    cases hm : x.memory? with
    | none => simp [Task.wasReleased, hm]
    | some m => simp [Task.wasReleased, hm, hx.unfed m hm]
  · rw [credit, hother t hi, credit]

/-- A follower that has just been made has heard of no parent yet. -/
theorem Linked.credit_eq {f : TaskId} {operators : List Operator} {parents : List TaskId}
    (h : Linked ρ ρ' f operators parents) (t : TaskId) : ρ'.credit t = ρ.credit t := by
  by_cases hf : t = f
  · subst hf
    rw [credit_eq_zero fun y hy => absurd (h.new.symm.trans hy) (Option.some_ne_none y).symm]
    refine credit_eq_zero ?_
    intro y hy
    rcases Option.some.inj (h.self.symm.trans hy) with rfl
    change decide (0 < parents.length ∧ parents.length ≤ 0) = false
    exact decide_eq_false (by omega)
  · by_cases hmem : t ∈ parents
    · rw [credit, h.parent t hmem, credit]
      cases ρ.task? t <;> rfl
    · rw [credit, h.other t hf hmem, credit]

/-- A task has run or is staged as often as it was added from outside and released. -/
theorem Change.balance [PatternLibrary] {l : Label} (h : Change ρ ρ' l) (hhand : l ≠ .byHand)
    (t : TaskId) :
    ρ'.staged.count t + l.ran?.toList.count t + ρ.credit t =
      ρ.staged.count t + l.added?.toList.count t + ρ'.credit t := by
  -- Only the end of a task gives credit, to its follower, which then comes to the stage; a task
  -- that is added or run changes what is staged, and no credit.
  cases h with
  | quiet htask hstaged =>
    rw [credit_of_task? htask, hstaged.count_eq]
    rfl
  | made i x hnew hx hself hother hstaged =>
    rw [credit_made hnew hx hself hother, hstaged]
    rfl
  | linked f operators parents h =>
    rw [h.credit_eq, h.staged]
    rfl
  | added i x hx hmemory htask hstaged =>
    rw [credit_of_task? htask, hstaged.count_eq, List.count_cons]
    simp only [Label.ran?, Label.added?, Option.toList_none, Option.toList_some, List.count_nil,
      List.count_cons]
    omega
  | told i x r hx hglobal h =>
    rw [h, credit_modify (g := fun x => x.setResult r) fun x => wasReleased_setResult x r]
    rfl
  | settled i x r hx hstorage htask hstaged =>
    have hbalance := balance_finish ρ i t (g := fun x => x.setResult r)
      fun x => wasReleased_setResult x r
    rw [credit_of_task? htask, hstaged.count_eq]
    exact hbalance
  | ran i x r hx hmemory hresult htask hstaged =>
    have hbalance := balance_finish ρ i t (g := fun x => x.forgetParents.setResult r) fun x => by
      rw [wasReleased_setResult, wasReleased_forgetParents]
    have hcredit := credit_of_task? htask t
    have hcount := hstaged.count_eq t
    rw [List.count_cons] at hcount
    simp only [Label.ran?, Label.added?, Option.toList_none, Option.toList_some, List.count_nil,
      List.count_cons]
    omega
  | byHand => exact absurd rfl hhand
  | forced i r h =>
    rw [h, credit_modify (g := fun x => x.setResult r) fun x => wasReleased_setResult x r]
    rfl

theorem Changes.balance [PatternLibrary] {ls : List Label} (h : Changes ρ ρ' ls)
    (hhand : .byHand ∉ ls) (t : TaskId) :
    ρ'.staged.count t + (ls.filterMap Label.ran?).count t + ρ.credit t =
      ρ.staged.count t + (ls.filterMap Label.added?).count t + ρ'.credit t := by
  induction h with
  | nil => rfl
  | cons first rest ih =>
    rename_i ρ ρ₁ ρ' l ls
    have hfirst := first.balance (fun hl => hhand (hl ▸ List.mem_cons_self)) t
    have hrest := ih fun hmem => hhand (List.mem_cons_of_mem l hmem)
    rw [filterMap_cons_toList, filterMap_cons_toList, List.count_append, List.count_append]
    omega

/-- A credit stays. -/
theorem Later.credit_le (h : ρ.Later ρ') (t : TaskId) : ρ.credit t ≤ ρ'.credit t := by
  cases hx : ρ.task? t with
  | none => simp [credit, hx]
  | some x =>
    rcases h t x hx with ⟨y, hy, hxy⟩
    cases hm : x.memory? with
    | none => simp [credit, hx, Task.wasReleased, hm]
    | some m =>
      rcases hxy.memory m hm with ⟨m', hm', hrequired, _, hready⟩
      simp only [credit, hx, hy, Option.any_some, Task.wasReleased, hm, hm', hrequired,
        decide_eq_true_eq]
      split <;> split <;> omega

/-! ## Followers and their parents -/

/-- How often parents have reported to a task. -/
def ready (ρ : Roster) (f : TaskId) : Nat :=
  (((ρ.task? f).bind Task.memory?).map MemoryShape.ready).getD 0

/-- The task `f` is the follower of `parents` and of no other task, and it keeps its operators, its
own source, if it has one, and, until it has a result, its parents. -/
structure Fed (ρ : Roster) (f : TaskId) (operators : List Operator) (source : Option RowStream)
    (parents : List TaskId) : Prop where
  exist : ∀ p ∈ parents, ∃ x, ρ.task? p = some x
  follower : ∀ t x, ρ.task? t = some x → (x.follower = some f ↔ t ∈ parents)
  self : ∃ x m, ρ.task? f = some x ∧ x.memory? = some m ∧ x.operators = operators ∧
    m.source = source ∧ m.required = parents.length ∧ (x.result = none → m.parents = parents)

/-- Whether the end of a task is reported to a follower with these parents. -/
def reports (ρ : Roster) (parents : List TaskId) (t : TaskId) : Bool :=
  decide (t ∈ parents) && (ρ.task? t).any Task.isSync

variable {f : TaskId} {operators : List Operator} {source : Option RowStream}
  {parents : List TaskId}

theorem Fed.reports_eq (h : ρ.Fed f operators source parents) (hlater : ρ.Later ρ') (t : TaskId) :
    ρ'.reports parents t = ρ.reports parents t := by
  unfold reports
  by_cases ht : t ∈ parents
  · rcases h.exist t ht with ⟨x, hx⟩
    rcases hlater t x hx with ⟨y, hy, hxy⟩
    rw [hx, hy, Option.any_some, Option.any_some, hxy.isSync_eq]
  · simp [ht]

/-- A follower that has just been made. -/
theorem Linked.fed (h : Linked ρ ρ' f operators parents) (htyped : ρ.Typed) :
    ρ'.Fed f operators none parents where
  exist p hp := by
    rcases h.free p hp with ⟨x, hx, _⟩
    exact ⟨x.setFollower f, by rw [h.parent p hp, hx, Option.map_some]⟩
  follower t x hx := by
    -- Followers are there, and `f` was not, so nobody had it as a follower.
    have hnot : ∀ y, ρ.task? t = some y → y.follower ≠ some f := by
      intro y hy hf
      rcases htyped.followers t y f hy hf with ⟨z, hz, _⟩
      exact Option.some_ne_none z (hz.symm.trans h.new)
    by_cases hp : t ∈ parents
    · rcases h.free t hp with ⟨y, hy, hfree⟩
      rw [h.parent t hp, hy] at hx
      rcases Option.some.inj hx with rfl
      simp [hp, Task.setFollower, hfree]
    · by_cases hf : t = f
      · subst hf
        rcases Option.some.inj (h.self.symm.trans hx) with rfl
        simp [hp, Task.newFollower, Task.new]
      · rw [h.other t hf hp] at hx
        simp [hp, hnot x hx]
  self := ⟨_, _, h.self, rfl, rfl, rfl, rfl, fun _ => rfl⟩

/-- What `g` does to a task keeps a follower fed: its own follower stays, and while there is no
result nothing of what it was made from is lost. -/
structure Keeps (g : Task → Task) : Prop where
  follower : ∀ x, (g x).follower = x.follower
  self : ∀ x m, x.memory? = some m → (g x).operators = x.operators ∧
    ∃ m', (g x).memory? = some m' ∧ m'.source = m.source ∧ m'.required = m.required ∧
      ((g x).result = none → x.result = none ∧ m'.parents = m.parents)

theorem keeps_setResult (r : TaskResult) : Keeps fun x => x.setResult r where
  follower _ := rfl
  self x m hm := by
    refine ⟨rfl, m, hm, rfl, rfl, ?_⟩
    intro hresult
    cases h : x.result <;> simp [Task.setResult, h] at hresult

theorem keeps_run (r : TaskResult) : Keeps fun x => x.forgetParents.setResult r where
  follower x := by rcases x with ⟨_, _, _, _, _, _, _ | _ | _⟩ <;> rfl
  self x m hm := by
    rcases x with ⟨_, _, _, result, _, _, _ | m₀ | _⟩
    · cases hm
    · obtain rfl : m₀ = m := Option.some.inj hm
      refine ⟨rfl, _, rfl, rfl, rfl, ?_⟩
      intro hresult
      cases result <;> simp [Task.setResult, Task.forgetParents] at hresult
    · cases hm

theorem keeps_countParent : Keeps Task.countParent where
  follower x := by rcases x with ⟨_, _, _, _, _, _, _ | _ | _⟩ <;> rfl
  self x m hm := by
    rcases x with ⟨_, _, _, _, _, _, _ | m₀ | _⟩
    · cases hm
    · obtain rfl : m₀ = m := Option.some.inj hm
      exact ⟨rfl, _, rfl, rfl, rfl, fun hresult => ⟨hresult, rfl⟩⟩
    · cases hm

theorem Fed.of_task? (h : ρ.Fed f operators source parents) (htask : ρ'.task? = ρ.task?) :
    ρ'.Fed f operators source parents := by
  rcases h with ⟨hexist, hfollower, hself⟩
  rw [← htask] at hexist hfollower hself
  exact ⟨hexist, hfollower, hself⟩

theorem Fed.modify (h : ρ.Fed f operators source parents) (t : TaskId) {g : Task → Task}
    (hg : Keeps g) : (ρ.modify t g).Fed f operators source parents where
  exist p hp := by
    rcases h.exist p hp with ⟨x, hx⟩
    by_cases hpt : p = t
    · exact ⟨g x, by rw [task?_modify, if_pos hpt, hx, Option.map_some]⟩
    · exact ⟨x, by rw [task?_modify, if_neg hpt, hx]⟩
  follower i y hy := by
    rcases exists_task?_of_modify hy with ⟨x, hx, rfl | ⟨_, rfl⟩⟩
    · exact h.follower i y hx
    · rw [hg.follower x]
      exact h.follower i x hx
  self := by
    rcases h.self with ⟨x, m, hx, hm, hoperators, hsource, hrequired, hparents⟩
    by_cases hft : f = t
    · rcases hg.self x m hm with ⟨hoperators', m', hm', hsource', hrequired', hkept⟩
      refine ⟨g x, m', by rw [task?_modify, if_pos hft, hx, Option.map_some], hm',
        hoperators'.trans hoperators, hsource'.trans hsource, hrequired'.trans hrequired,
        fun hresult => ?_⟩
      -- No result after the change means none before it, so the parents are still listed.
      rcases hkept hresult with ⟨hnone, hsame⟩
      exact hsame.trans (hparents hnone)
    · exact ⟨x, m, by rw [task?_modify, if_neg hft, hx], hm, hoperators, hsource, hrequired,
        hparents⟩

theorem Fed.finish (h : ρ.Fed f operators source parents) (t : TaskId) {g : Task → Task}
    (hg : Keeps g) : (ρ.finish t g).Fed f operators source parents := by
  unfold Roster.finish
  cases ρ.informed? t with
  | none => exact h.modify t hg
  | some f' => exact ((h.modify t hg).modify f' keeps_countParent).of_task? rfl

/-- A new task has no follower, and it is none of the parents, which were there before. -/
theorem Fed.made (h : ρ.Fed f operators source parents) (hlater : ρ.Later ρ') {t : TaskId}
    {x : Task} (hnew : ρ.task? t = none) (hx : x.IsNew) (hself : ρ'.task? t = some x)
    (hother : ∀ i, i ≠ t → ρ'.task? i = ρ.task? i) : ρ'.Fed f operators source parents where
  exist p hp := by
    rcases h.exist p hp with ⟨y, hy⟩
    rcases hlater p y hy with ⟨z, hz, _⟩
    exact ⟨z, hz⟩
  follower i y hy := by
    rcases task?_of_made hself hother hy with ⟨rfl, rfl⟩ | hy
    · have hnot : i ∉ parents := by
        intro hp
        rcases h.exist i hp with ⟨z, hz⟩
        exact ne_of_task?_eq_none hnew hz rfl
      simp [hx.follower, hnot]
    · exact h.follower i y hy
  self := by
    rcases h.self with ⟨z, m, hz, hrest⟩
    exact ⟨z, m, by rw [hother f (ne_of_task?_eq_none hnew hz), hz], hrest⟩

/-- A new follower takes only parents that have none, so it takes none of these. -/
theorem Fed.linked (h : ρ.Fed f operators source parents) (hlater : ρ.Later ρ') {f' : TaskId}
    {operators' : List Operator} {parents' : List TaskId}
    (hlinked : Linked ρ ρ' f' operators' parents') : ρ'.Fed f operators source parents where
  exist p hp := by
    rcases h.exist p hp with ⟨y, hy⟩
    rcases hlater p y hy with ⟨z, hz, _⟩
    exact ⟨z, hz⟩
  follower i y hy := by
    rcases hlinked.task?_cases hy with ⟨rfl, rfl⟩ | ⟨x, _, hx, hfree, rfl⟩ | ⟨_, hy⟩
    · have hnot : i ∉ parents := by
        intro hp
        rcases h.exist i hp with ⟨z, hz⟩
        exact ne_of_task?_eq_none hlinked.new hz rfl
      simp [hnot, Task.newFollower, Task.new]
    · have hnot : i ∉ parents := by
        intro hmem
        have hfollower := (h.follower i x hx).mpr hmem
        exact Option.some_ne_none f (hfollower.symm.trans hfree)
      rcases h.self with ⟨z, _, hz, _⟩
      have hff' : f ≠ f' := ne_of_task?_eq_none hlinked.new hz
      simp [hnot, Task.setFollower, hfree, Ne.symm hff']
    · exact h.follower i y hy
  self := by
    rcases h.self with ⟨z, m, hz, hrest⟩
    by_cases hp : f ∈ parents'
    · exact ⟨z.setFollower f', m, by rw [hlinked.parent f hp, hz, Option.map_some], hrest⟩
    · exact ⟨z, m, by rw [hlinked.other f (ne_of_task?_eq_none hlinked.new hz) hp, hz], hrest⟩

/-- A follower stays the follower of its parents and of no other task. -/
theorem Change.fed [PatternLibrary] {l : Label} (h : Change ρ ρ' l) (hhand : l ≠ .byHand)
    (hfed : ρ.Fed f operators source parents) : ρ'.Fed f operators source parents := by
  have hlater := h.later
  cases h with
  | quiet htask => exact hfed.of_task? htask
  | made t x hnew hx hself hother => exact hfed.made hlater hnew hx hself hother
  | linked f' operators' parents' h => exact hfed.linked hlater h
  | added _ _ _ _ htask => exact hfed.of_task? htask
  | told t x r _ _ h => exact h ▸ hfed.modify t (keeps_setResult r)
  | settled t x r _ _ htask => exact (hfed.finish t (keeps_setResult r)).of_task? htask
  | ran t x r _ _ _ htask => exact (hfed.finish t (keeps_run r)).of_task? htask
  | byHand => exact absurd rfl hhand
  | forced t r h => exact h ▸ hfed.modify t (keeps_setResult r)

theorem Changes.fed [PatternLibrary] {ls : List Label} (h : Changes ρ ρ' ls) (hhand : .byHand ∉ ls)
    (hfed : ρ.Fed f operators source parents) : ρ'.Fed f operators source parents := by
  induction h with
  | nil => exact hfed
  | cons first _ ih =>
    exact ih (fun hmem => hhand (List.mem_cons_of_mem _ hmem))
      (first.fed (fun hl => hhand (hl ▸ List.mem_cons_self)) hfed)

/-! ## Counting the reports -/

theorem ready_modify (t : TaskId) {g : Task → Task}
    (hg : ∀ x, (g x).memory?.map MemoryShape.ready = x.memory?.map MemoryShape.ready)
    (i : TaskId) : (ρ.modify t g).ready i = ρ.ready i := by
  rw [ready, task?_modify, ready]
  cases ρ.task? i with
  | none => simp
  | some x => by_cases hi : i = t <;> simp [hi, hg]

/-- Only the follower that is informed counts. -/
theorem ready_inform (h : ρ.HasMemory f) (f? : Option TaskId) :
    (ρ.inform f?).ready f = ρ.ready f + if f? = some f then 1 else 0 := by
  cases f? with
  | none => rfl
  | some f' =>
    have htold : (ρ.inform (some f')).ready f = (ρ.modify f' Task.countParent).ready f := rfl
    rw [htold, ready, task?_modify, ready]
    by_cases hf : f = f'
    · subst hf
      rcases h with ⟨x, hx, hmemory⟩
      rcases x with ⟨_, _, _, _, _, _, _ | m | _⟩
      · cases hmemory
      · simp [hx, Task.countParent, Task.memory?]
      · cases hmemory
    · simp [hf, Ne.symm hf]

theorem Fed.hasMemory (h : ρ.Fed f operators source parents) : ρ.HasMemory f := by
  rcases h.self with ⟨x, m, hx, hm, _⟩
  exact ⟨x, hx, Option.isSome_iff_exists.mpr ⟨m, hm⟩⟩

/-- The end of a task reaches the follower exactly if it is reported to it. -/
theorem Fed.ready_finish (h : ρ.Fed f operators source parents) {t : TaskId} {x : Task}
    (hx : ρ.task? t = some x) {g : Task → Task} (hkeeps : Keeps g)
    (hg : ∀ x, (g x).memory?.map MemoryShape.ready = x.memory?.map MemoryShape.ready) :
    (ρ.finish t g).ready f = ρ.ready f + if ρ.reports parents t then 1 else 0 := by
  -- The follower of `t` is `f` exactly if `t` is one of the parents.
  have hinformed : (ρ.informed? t = some f) ↔ ρ.reports parents t = true := by
    rw [informed?, hx, Option.bind_some, reports, hx, Option.any_some, Bool.and_eq_true,
      decide_eq_true_eq, ← h.follower t x hx]
    by_cases hsync : x.isSync <;> simp [hsync]
  rw [Roster.finish, ready_inform (h.modify t hkeeps).hasMemory, ready_modify t hg]
  simp only [hinformed]

theorem Change.ready_eq [PatternLibrary] {l : Label} (h : Change ρ ρ' l) (hhand : l ≠ .byHand)
    (hfed : ρ.Fed f operators source parents) :
    ρ'.ready f = ρ.ready f + (l.ended?.toList.map Prod.fst).countP (ρ.reports parents) := by
  have hsame : ρ'.task? f = ρ.task? f → ρ'.ready f = ρ.ready f + 0 := by
    intro htask
    rw [Nat.add_zero, ready, htask, ready]
  rcases hfed.self with ⟨z, m, hz, hm, _⟩
  cases h with
  | quiet htask => exact hsame (congrFun htask f)
  | made t x hnew hx hself hother =>
    exact hsame (hother f (ne_of_task?_eq_none hnew hz))
  | linked f' operators' parents' h =>
    have hff' : f ≠ f' := ne_of_task?_eq_none h.new hz
    by_cases hp : f ∈ parents'
    · change ρ'.ready f = ρ.ready f + 0
      rw [Nat.add_zero, ready, h.parent f hp, ready, hz]
      rfl
    · exact hsame (h.other f hff' hp)
  | added _ _ _ _ htask => exact hsame (congrFun htask f)
  | told t x r _ _ h =>
    subst h
    exact ready_modify t (g := fun x => x.setResult r) (fun _ => rfl) f
  | settled t x r hx _ htask =>
    have hfinish := hfed.ready_finish hx (keeps_setResult r) fun _ => rfl
    rw [ready, htask, ← ready, hfinish]
    simp [Label.ended?, List.countP_cons]
  | ran t x r hx _ _ htask =>
    have hfinish := hfed.ready_finish hx (keeps_run r) fun x => by
      rcases x with ⟨_, _, _, _, _, _, _ | _ | _⟩ <;> rfl
    rw [ready, htask, ← ready, hfinish]
    simp [Label.ended?, List.countP_cons]
  | byHand => exact absurd rfl hhand
  | forced t r h =>
    subst h
    exact ready_modify t (g := fun x => x.setResult r) (fun _ => rfl) f

/-- A follower counts the ends of its sync parents. -/
theorem Changes.ready_eq [PatternLibrary] {ls : List Label} (h : Changes ρ ρ' ls)
    (hhand : .byHand ∉ ls) (hfed : ρ.Fed f operators source parents) :
    ρ'.ready f =
      ρ.ready f + ((ls.filterMap Label.ended?).map Prod.fst).countP (ρ.reports parents) := by
  induction h with
  | nil => rfl
  | cons first rest ih =>
    rename_i ρ ρ₁ ρ' l ls
    have hl : l ≠ .byHand := fun hl => hhand (hl ▸ List.mem_cons_self)
    -- Tasks stay sync or not, so ends are reported or not whenever they come.
    have hreports : ρ₁.reports parents = ρ.reports parents :=
      funext (hfed.reports_eq first.later)
    rw [ih (fun hmem => hhand (List.mem_cons_of_mem l hmem)) (first.fed hl hfed),
      first.ready_eq hl hfed, filterMap_cons_toList, List.map_append, List.countP_append, hreports,
      Nat.add_assoc]

/-- A follower has its credit exactly if all its parents have reported. -/
theorem Fed.credit_eq (h : ρ.Fed f operators source parents) :
    ρ.credit f = if 0 < parents.length ∧ parents.length ≤ ρ.ready f then 1 else 0 := by
  rcases h.self with ⟨x, m, hx, hm, _, _, hrequired, _⟩
  simp [credit, ready, hx, hm, Task.wasReleased, hrequired]

end Roster
end SeriesExec
