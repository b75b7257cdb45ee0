import SeriesExec.Proofs.Changes

/-!
# Results — where a result comes from

A task over the cluster gets its result at once.  Any other task gets the result with which it first
ends, in the loop of a unit, on a worker of an engine or on a memory worker.  This file defines:

* `Roster.Label.ended?` and `Cluster.endedBy` — the tasks that a change or an event ends;
* `Cluster.trace` — what the events of a history do, one after another.

Main statements: the result of a storage task is that of its first ending
(`storageResults_of_run?`), and a task has a result exactly if it has ended (`isSome_result?_iff`).
-/

namespace SeriesExec

open Traffic Roster

namespace Roster

/-- The result of a task, if it has one. -/
def result? (ρ : Roster) (t : TaskId) : Option TaskResult :=
  (ρ.task? t).bind Task.result

theorem Later.result? {ρ ρ' : Roster} (h : ρ.Later ρ') {t : TaskId} {r : TaskResult}
    (hr : ρ.result? t = some r) : ρ'.result? t = some r := by
  rcases Option.bind_eq_some_iff.mp hr with ⟨x, hx, hresult⟩
  rcases h t x hx with ⟨y, hy, hxy⟩
  rw [Roster.result?, hy, Option.bind_some, hxy.result r hresult]

/-- The task that a change ends, and with what. -/
def Label.ended? : Label → Option (TaskId × TaskResult)
  | .settled t r => some (t, r)
  | .ran t r => some (t, r)
  | _ => none

/-- The result with which a task ends first. -/
def firstResult? (t : TaskId) (ends : List (TaskId × TaskResult)) : Option TaskResult :=
  (ends.find? fun e => e.1 == t).map Prod.snd

theorem firstResult?_append (t : TaskId) (ends ends' : List (TaskId × TaskResult)) :
    firstResult? t (ends ++ ends') = (firstResult? t ends).or (firstResult? t ends') := by
  rw [firstResult?, List.find?_append, Option.map_or]
  rfl

theorem isSome_firstResult? (t : TaskId) (ends : List (TaskId × TaskResult)) :
    (firstResult? t ends).isSome ↔ t ∈ ends.map Prod.fst := by
  simp [firstResult?, List.find?_isSome]

theorem filterMap_cons_toList {α : Type} (f : Label → Option α) (l : Label) (ls : List Label) :
    (l :: ls).filterMap f = (f l).toList ++ ls.filterMap f := by
  rw [List.filterMap_cons]
  cases f l <;> rfl

variable {ρ ρ₁ ρ' : Roster}

theorem result?_modify (t i : TaskId) (g : Task → Task) (hg : ∀ x, (g x).result = x.result) :
    (ρ.modify t g).result? i = ρ.result? i := by
  rw [result?, task?_modify, result?]
  cases ρ.task? i with
  | none => simp
  | some x => by_cases hi : i = t <;> simp [hi, hg]

theorem result?_inform (f? : Option TaskId) (i : TaskId) :
    (ρ.inform f?).result? i = ρ.result? i := by
  cases f? with
  | none => rfl
  | some f =>
    refine result?_modify f i Task.countParent fun x => ?_
    rcases x with ⟨_, _, _, _, _, _, _ | _ | _⟩ <;> rfl

/-- A task that ends has the result of that end, unless it had one before. -/
theorem result?_finish {t : TaskId} {x : Task} (hx : ρ.task? t = some x) {g : Task → Task}
    {r : TaskResult} (hg : ∀ x, (g x).result = x.result.or (some r)) (i : TaskId) :
    (ρ.finish t g).result? i = (ρ.result? i).or (firstResult? i [(t, r)]) := by
  rw [finish, result?_inform, result?, task?_modify, result?]
  by_cases hi : i = t
  · subst hi
    simp [hx, hg, firstResult?]
  · simp [hi, firstResult?, Ne.symm hi]

theorem Change.result? [PatternLibrary] {l : Label} (h : Change ρ ρ' l) (hforced : l ≠ .forced)
    {t : TaskId} (ht : ∀ y, ρ'.task? t = some y → y.isGlobal = false) :
    ρ'.result? t = (ρ.result? t).or (firstResult? t l.ended?.toList) := by
  -- A change that leaves `t` alone ends nothing.
  have hkeep : ρ'.task? t = ρ.task? t → ρ'.result? t = (ρ.result? t).or none := by
    intro htask
    rw [Option.or_none, Roster.result?, htask, Roster.result?]
  cases h with
  | quiet htask => exact hkeep (congrFun htask t)
  | made i x hnew hx hself hother =>
    by_cases hi : t = i
    · subst hi
      simp [Roster.result?, hnew, hself, hx.result, Label.ended?, firstResult?]
    · exact hkeep (hother t hi)
  | linked f operators parents h =>
    by_cases hf : t = f
    · subst hf
      simp [Roster.result?, h.new, h.self, Label.ended?, firstResult?, Task.newFollower, Task.new]
    · by_cases hmem : t ∈ parents
      · rcases h.free t hmem with ⟨x, hx, _⟩
        simp [Roster.result?, h.parent t hmem, hx, Label.ended?, firstResult?, Task.setFollower]
      · exact hkeep (h.other t hf hmem)
  | added _ _ _ _ htask => exact hkeep (congrFun htask t)
  | told i x r hx hglobal h =>
    refine hkeep ?_
    rw [h, task?_modify]
    refine if_neg ?_
    -- Only a task over the cluster gets its result in this way, and `t` is none.
    rintro rfl
    have hset := ht (x.setResult r) (by rw [h, task?_modify, if_pos rfl, hx, Option.map_some])
    exact absurd hglobal (by rw [show x.isGlobal = (x.setResult r).isGlobal from rfl, hset]; simp)
  | settled i x r hx _ htask =>
    rw [Roster.result?, htask]
    exact result?_finish hx (fun _ => rfl) t
  | ran i x r hx _ _ htask =>
    rw [Roster.result?, htask]
    refine result?_finish hx (fun x => ?_) t
    rcases x with ⟨_, _, _, _, _, _, _ | _ | _⟩ <;> rfl
  | byHand i g _ hresult _ h =>
    rw [h, result?_modify i t g hresult]
    exact (Option.or_none).symm
  | forced => exact absurd rfl hforced

/-- A task has the result with which it first ends, unless it had one before. -/
theorem Changes.result? [PatternLibrary] {ls : List Label} (h : Changes ρ ρ' ls)
    (hforced : .forced ∉ ls) {t : TaskId} (ht : ∀ y, ρ'.task? t = some y → y.isGlobal = false) :
    ρ'.result? t = (ρ.result? t).or (firstResult? t (ls.filterMap Label.ended?)) := by
  induction h with
  | nil => exact (Option.or_none).symm
  | cons first rest ih =>
    rename_i ρ ρ₁ ρ' l ls
    -- A task does not change its kind on the way, so `t` is none over the cluster at any time.
    have ht₁ : ∀ y, ρ₁.task? t = some y → y.isGlobal = false := by
      intro y hy
      rcases rest.later t y hy with ⟨z, hz, hyz⟩
      exact hyz.isGlobal_eq ▸ ht z hz
    have hl : l ≠ .forced := fun hl => hforced (hl ▸ List.mem_cons_self)
    rw [ih (fun hmem => hforced (List.mem_cons_of_mem l hmem)) ht, first.result? hl ht₁,
      filterMap_cons_toList, firstResult?_append, Option.or_assoc]

/-- A task that a memory worker ends is a memory task. -/
theorem Changes.hasMemory_of_ran [PatternLibrary] {ls : List Label} (h : Changes ρ ρ' ls)
    {t : TaskId} (ht : t ∈ ls.filterMap Label.ran?) : ρ'.HasMemory t := by
  induction h with
  | nil => cases ht
  | cons first rest ih =>
    rename_i ρ ρ₁ ρ' l ls
    rw [List.filterMap_cons] at ht
    cases first with
    | ran i x r hx hmemory hresult htask hstaged =>
      rcases List.mem_cons.mp ht with rfl | ht
      · exact HasMemory.later ⟨x, hx, hmemory⟩
          ((Change.ran t x r hx hmemory hresult htask hstaged).later.trans rest.later)
      · exact ih ht
    | _ => exact ih ht

/-- A task that a loop or a worker of an engine ends is a storage task. -/
theorem Changes.hasStorage_of_settled [PatternLibrary] {ls : List Label} (h : Changes ρ ρ' ls)
    {t : TaskId} (ht : t ∈ (ls.filterMap Label.settled?).map Prod.fst) : ρ'.HasStorage t := by
  induction h with
  | nil => cases ht
  | cons first rest ih =>
    rename_i ρ ρ₁ ρ' l ls
    rw [List.filterMap_cons] at ht
    cases first with
    | settled i x r hx hstorage htask hstaged =>
      rcases List.mem_cons.mp ht with rfl | ht
      · exact HasStorage.later ⟨x, hx, hstorage⟩
          ((Change.settled _ x r hx hstorage htask hstaged).later.trans rest.later)
      · exact ih ht
    | _ => exact ih ht

/-- The ends of storage tasks and those of memory tasks are all ends. -/
theorem ended_perm (ls : List Label) :
    ((ls.filterMap Label.ended?).map Prod.fst).Perm
      ((ls.filterMap Label.settled?).map Prod.fst ++ ls.filterMap Label.ran?) := by
  induction ls with
  | nil => exact List.Perm.refl _
  | cons l ls ih =>
    cases l with
    | settled t r => exact List.Perm.cons t ih
    | ran t r => exact (List.Perm.cons t ih).trans List.perm_middle.symm
    | _ => exact ih

/-- For a task that no memory worker ends, only the ends of storage tasks count. -/
theorem firstResult?_ended {t : TaskId} {ls : List Label} (ht : t ∉ ls.filterMap Label.ran?) :
    firstResult? t (ls.filterMap Label.ended?) = firstResult? t (ls.filterMap Label.settled?) := by
  induction ls with
  | nil => rfl
  | cons l ls ih =>
    cases l with
    -- Both projections keep the order of the ends of storage tasks.
    | settled i r =>
      have hrest := ih ht
      by_cases hi : i = t <;> simp_all [firstResult?, Label.ended?, Label.settled?]
    | ran i r =>
      have hi : i ≠ t := fun hi => ht (hi ▸ List.mem_cons_self)
      have hrest := ih fun hmem => ht (List.mem_cons_of_mem i hmem)
      simp_all [firstResult?, Label.ended?, Label.settled?]
    | _ => exact ih ht

end Roster

namespace Cluster

variable {c c' : Cluster}

/-- The result of a task, if it has one. -/
def result? (c : Cluster) (t : TaskId) : Option TaskResult :=
  (c.task? t).bind Task.result

theorem result?_roster (c : Cluster) (t : TaskId) : c.roster.result? t = c.result? t :=
  result_roster c t

variable [PatternLibrary]

/-- What the events of a history do, each by itself. -/
def trace {α : Type} (f : Cluster → Event → List α) (c : Cluster) : List Event → List α
  | [] => []
  | e :: rest =>
    match c.after? e with
    | none => []
    | some c' => f c e ++ trace f c' rest

theorem trace_cons {α : Type} (f : Cluster → Event → List α) {e : Event}
    (hafter : c.after? e = some c') (rest : List Event) :
    c.trace f (e :: rest) = f c e ++ c'.trace f rest := by
  rw [trace, hafter]

theorem trace_append {α : Type} (f : Cluster → Event → List α) {first : List Event}
    (hrun : c.run? first = some c') (second : List Event) :
    c.trace f (first ++ second) = c.trace f first ++ c'.trace f second := by
  induction first generalizing c with
  | nil =>
    injection hrun with hrun
    rw [hrun]
    rfl
  | cons e rest ih =>
    rcases Option.bind_eq_some_iff.mp hrun with ⟨c₁, hafter, hrest⟩
    rw [List.cons_append, trace_cons f hafter, trace_cons f hafter, ih hrest, List.append_assoc]

theorem trace_snoc {α : Type} (f : Cluster → Event → List α) {events : List Event} {e : Event}
    {c₁ : Cluster} (hrun : c.run? events = some c₁) (hafter : c₁.after? e = some c') :
    c.trace f (events ++ [e]) = c.trace f events ++ f c₁ e := by
  rw [trace_append f hrun, trace_cons f hafter, trace, List.append_nil]

/-- The event `e` happens in a history from `c` to `c'`, and leads from `c₁` to `c₂`. -/
structure Within (c c' c₁ : Cluster) (e : Event) (c₂ : Cluster) : Prop where
  before : ∃ events, c.run? events = some c₁
  after : c₁.after? e = some c₂
  rest : ∃ events, c₂.run? events = some c'

theorem Within.cons {c₀ c₁ c₂ : Cluster} {e₀ e : Event} (h : Within c₀ c' c₁ e c₂)
    (hafter : c.after? e₀ = some c₀) : Within c c' c₁ e c₂ := by
  rcases h.before with ⟨events, hrun⟩
  refine ⟨⟨e₀ :: events, ?_⟩, h.after, h.rest⟩
  rw [run?, hafter]
  exact hrun

/-- Whatever is in a trace comes from one event. -/
theorem within_of_mem_trace {α : Type} {f : Cluster → Event → List α} {events : List Event}
    (hrun : c.run? events = some c') {a : α} (ha : a ∈ c.trace f events) :
    ∃ c₁ e c₂, Within c c' c₁ e c₂ ∧ a ∈ f c₁ e := by
  induction events generalizing c with
  | nil => cases ha
  | cons e rest ih =>
    rcases Option.bind_eq_some_iff.mp hrun with ⟨c₁, hafter, hrest⟩
    rw [trace_cons f hafter] at ha
    rcases List.mem_append.mp ha with ha | ha
    · exact ⟨c, e, c₁, ⟨⟨[], rfl⟩, hafter, rest, hrest⟩, ha⟩
    · rcases ih hrest ha with ⟨c₂, e', c₃, hwithin, ha⟩
      exact ⟨c₂, e', c₃, hwithin.cons hafter, ha⟩

/-- What every event of a history keeps, the history keeps; what comes before and after the event is
at hand. -/
theorem within_induction {P : Cluster → Prop} {events : List Event}
    (hrun : c.run? events = some c')
    (hstep : ∀ e ∈ events, ∀ c₁ c₂, Within c c' c₁ e c₂ → P c₁ → P c₂) (hstart : P c) : P c' := by
  induction events generalizing c with
  | nil =>
    injection hrun with hrun
    exact hrun ▸ hstart
  | cons e rest ih =>
    obtain ⟨c₁, hafter, hrest⟩ := Option.bind_eq_some_iff.mp hrun
    refine ih hrest (fun e he c₂ c₃ hwithin => ?_) ?_
    · exact hstep e (List.mem_cons_of_mem _ he) c₂ c₃ (hwithin.cons hafter)
    · exact hstep _ List.mem_cons_self c c₁ ⟨⟨[], rfl⟩, hafter, rest, hrest⟩ hstart

/-- The tasks that an event ends in the loop of a unit, on a worker of an engine or on a memory
worker. -/
def endedBy (c : Cluster) (e : Event) : List TaskId :=
  match c.after? e with
  | none => []
  | some c' => (c'.finished.drop c.finished.length).map (fun d => d.delivery.task) ++ e.ran

/-! ## Results of storage tasks -/

/-- The first delivery of a storage task that has ended decides its result. -/
def StorageResults (c : Cluster) : Prop :=
  ∀ t, (∀ y, c.roster.task? t = some y → y.isStorage) →
    c.roster.result? t = firstResult? t (c.finished.map Ending.news)

theorem StorageResults.after? (h : c.StorageResults) (hc : c.Coherent) {e : Event}
    (he : e.setsResult = false) (hafter : c.after? e = some c') : c'.StorageResults := by
  rcases exists_explains_of_after? hc hafter with ⟨ls, hexplains⟩
  intro t ht
  have hforced : .forced ∉ ls := fun hmem => by simp [hexplains.forced hmem] at he
  -- A storage task is not run in memory, so only endings of deliveries count for it.
  have hran : t ∉ ls.filterMap Label.ran? := by
    intro hmem
    rcases hexplains.changes.hasMemory_of_ran hmem with ⟨y, hy, hmemory⟩
    exact HasStorage.not_hasMemory ⟨y, hy, ht y hy⟩ ⟨y, hy, hmemory⟩
  have hbefore : ∀ y, c.roster.task? t = some y → y.isStorage := by
    intro y hy
    rcases hexplains.changes.later t y hy with ⟨z, hz, hyz⟩
    exact hyz.isStorage_eq ▸ ht z hz
  have hglobal : ∀ y, c'.roster.task? t = some y → y.isGlobal = false := by
    intro y hy
    exact isGlobal_eq_false (.inl ⟨y, hy, ht y hy⟩) y hy
  rw [hexplains.changes.result? hforced hglobal, h t hbefore, firstResult?_ended hran,
    ← firstResult?_append, ← hexplains.settled]

omit [PatternLibrary] in
theorem finished_build (s : Setup) : (build s).finished = [] :=
  (accepts_build s).finished

theorem storageResults_of_run? {s : Setup} {events : List Event}
    (hevents : ∀ e ∈ events, e.setsResult = false) (hrun : (build s).run? events = some c) :
    c.StorageResults := by
  have hboth : c.Coherent ∧ c.StorageResults := by
    refine run?_induction (P := fun c => c.Coherent ∧ c.StorageResults)
      (fun he h hafter => ⟨h.1.after? hafter, h.2.after? h.1 he hafter⟩) hevents
      ⟨coherent_build s, fun t _ => ?_⟩ hrun
    rw [roster_build, finished_build]
    rfl
  exact hboth.2

omit [PatternLibrary] in
/-- The result of a storage task is that of one of its deliveries. -/
theorem exists_ending_of_result? (h : c.StorageResults) {t : TaskId} {x : Task} {r : TaskResult}
    (hx : c.task? t = some x) (hstorage : x.isStorage = true) (hr : c.result? t = some r) :
    ∃ e ∈ c.finished, e.delivery.task = t ∧ e.result = r := by
  have hall : ∀ y, c.roster.task? t = some y → y.isStorage := by
    intro y hy
    rcases Option.some.inj ((task?_roster hx).symm.trans hy) with rfl
    exact (Task.core_isStorage x).trans hstorage
  rw [← result?_roster, h t hall] at hr
  obtain ⟨n, hn, rfl⟩ := Option.map_eq_some_iff.mp hr
  obtain ⟨e, he, rfl⟩ := List.mem_map.mp (List.mem_of_find?_eq_some hn)
  have htask := List.find?_some hn
  exact ⟨e, he, eq_of_beq htask, rfl⟩

/-! ## Results of all tasks but those over the cluster -/

theorem Explains.ended_perm {e : Event} {ls : List Label} (h : c.Explains e c' ls)
    (hafter : c.after? e = some c') :
    ((ls.filterMap Label.ended?).map Prod.fst).Perm (c.endedBy e) := by
  -- The endings that are new are those that the changes account for.
  have hdrop : (c'.finished.drop c.finished.length).map Ending.news =
      ls.filterMap Label.settled? := by
    rw [List.map_drop, h.settled, List.drop_left' (List.length_map _)]
  refine (Roster.ended_perm ls).trans ?_
  rw [endedBy, hafter, ← hdrop, h.ran, List.map_map]
  exact List.Perm.refl _

/-- A task has a result exactly if it had one or has ended. -/
theorem isSome_result?_iff {events : List Event} (hc : c.Coherent)
    (hevents : ∀ e ∈ events, e.setsResult = false) (hrun : c.run? events = some c') {t : TaskId}
    (ht : ∀ y, c'.roster.task? t = some y → y.isGlobal = false) :
    (c'.roster.result? t).isSome ↔
      (c.roster.result? t).isSome ∨ t ∈ c.trace endedBy events := by
  induction events generalizing c with
  | nil =>
    injection hrun with hrun
    simp [hrun, trace]
  | cons e rest ih =>
    rcases Option.bind_eq_some_iff.mp hrun with ⟨c₁, hafter, hrest⟩
    rcases exists_explains_of_after? hc hafter with ⟨ls, hexplains⟩
    have hforced : .forced ∉ ls := by
      intro hmem
      have he := hevents e List.mem_cons_self
      simp [hexplains.forced hmem] at he
    have hlater := later_of_run? (hc.after? hafter) hrest
    have ht₁ : ∀ y, c₁.roster.task? t = some y → y.isGlobal = false := by
      intro y hy
      rcases hlater t y hy with ⟨z, hz, hyz⟩
      exact hyz.isGlobal_eq ▸ ht z hz
    -- The first event ends `t`, or leaves it as it was; the rest is the induction hypothesis.
    have hfirst : (c₁.roster.result? t).isSome ↔
        (c.roster.result? t).isSome ∨ t ∈ c.endedBy e := by
      rw [hexplains.changes.result? hforced ht₁, Option.isSome_or, Bool.or_eq_true,
        isSome_firstResult?, (hexplains.ended_perm hafter).mem_iff]
    rw [ih (hc.after? hafter) (fun e he => hevents e (List.mem_cons_of_mem _ he)) hrest, hfirst,
      trace_cons endedBy hafter, List.mem_append, or_assoc]

end Cluster
end SeriesExec
