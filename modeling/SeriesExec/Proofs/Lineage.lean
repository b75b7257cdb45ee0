import SeriesExec.Proofs.Feeding
import SeriesExec.Proofs.TaskFrames

/-!
# Lineage — where memory tasks come from

A memory task has a source of its own, or it was made as the follower of tasks that were there
before.  This file defines `Cluster.Feeds`, the relation between a task and its follower.

Main statements: every memory task of a history was made in it (`exists_registered`), and what it
ends with is decided by its operators, its source and the results of the tasks that feed it
(`exists_lineage`).
-/

namespace SeriesExec

open Traffic Roster

theorem Task.lasting_isMemory : Task.Lasting Task.isMemory false where
  setResult _ _ := rfl
  setSpan _ _ := rfl
  setFollower _ _ := rfl
  countParent x := by rcases x with ⟨_, _, _, _, _, _, _ | _ | _⟩ <;> rfl
  forgetParents x := by rcases x with ⟨_, _, _, _, _, _, _ | _ | _⟩ <;> rfl
  newStorage _ _ _ _ _ := rfl
  newGlobal _ := rfl

namespace Cluster

variable {s : Setup} {events : List Event} {e : Event} {operators : List Operator}
  {parents : List TaskId} {p f : TaskId} {c c' : Cluster}

/-- The task `f` is the follower of the task `p`. -/
def Feeds (c : Cluster) (p f : TaskId) : Prop :=
  (c.task? p).bind Task.follower = some f

/-! ## The making of a memory task -/

theorem hasMemory_iff : c.roster.HasMemory f ↔ c.trait Task.isMemory false f = true := by
  rw [trait]
  constructor
  · rintro ⟨y, hy, hmemory⟩
    obtain ⟨x, hx, rfl⟩ := exists_task?_of_roster hy
    rw [hx]
    exact (Task.core_isMemory x).symm.trans hmemory
  · intro htrait
    cases hx : c.task? f with
    | none =>
      rw [hx] at htrait
      cases htrait
    | some x =>
      rw [hx] at htrait
      exact ⟨x.core, task?_roster hx, (Task.core_isMemory x).trans htrait⟩

variable [PatternLibrary]

/-- A task with a source that has just been made. -/
theorem registered_of_newSource (hc : c.Coherent) (source : RowStream) :
    (c.addTask (Task.newSource operators source)).1.Registered c.tasks.length operators
      (some source) [] := by
  have hself := roster_addTask c (Task.newSource operators source)
  have hnew : c.roster.task? c.tasks.length = none := by simp [roster, task?]
  have hfound : (c.addTask (Task.newSource operators source)).1.roster.task? c.tasks.length =
      some (Task.newSource operators source).core := by rw [hself, if_pos rfl]
  refine ⟨hc.after? (e := .asked (.newSource operators source)) rfl, List.nodup_nil, ⟨?_, ?_, ?_⟩,
    ?_, ?_, ?_⟩
  · exact fun p hp => absurd hp List.not_mem_nil
  · intro t x hx
    refine iff_of_false (fun hfollower => ?_) List.not_mem_nil
    rw [hself] at hx
    split at hx
    · obtain rfl := Option.some.inj hx
      cases hfollower
    -- Followers are there, and the new task was not.
    · obtain ⟨y, hy, _⟩ := hc.typed.followers t x _ hx hfollower
      exact Option.some_ne_none y (hy.symm.trans hnew)
  · exact ⟨_, _, hfound, rfl, rfl, rfl, rfl, fun _ => rfl⟩
  · rw [ready, hfound]
    rfl
  · intro hstaged
    obtain ⟨y, hy, _⟩ := hc.typed.staged _ hstaged
    exact Option.some_ne_none y (hy.symm.trans hnew)
  · rw [Roster.result?, hfound]
    rfl

/-- A follower is made, or nothing is. -/
theorem handle_follow_cases (c : Cluster) (operators : List Operator) (parents : List TaskId) :
    (c.handle (.follow operators parents)).1 = c ∨
      ∃ c' f, c.handle (.follow operators parents) = (c', .made f) := by
  unfold handle
  split
  · unfold obey
    dsimp only
    split
    · exact .inr ⟨_, _, rfl⟩
    · exact .inl rfl
  · exact .inl rfl

/-- The memory task `f` has just been made: the tasks that feed it were there before, and none feed
a task with a source. -/
structure Born (c : Cluster) (f : TaskId) (operators : List Operator) (source : Option RowStream)
    (parents : List TaskId) : Prop where
  registered : c.Registered f operators source parents
  unfed : source.isSome → parents = []
  older : ∀ p ∈ parents, p < f

theorem born_of_newSource (hc : c.Coherent) (source : RowStream) (hnew : c.roster.task? f = none)
    (hf : (c.handle (.newSource operators source)).1.roster.HasMemory f) :
    (c.handle (.newSource operators source)).1.Born f operators (some source) [] := by
  obtain ⟨x, hx, _⟩ := hf
  -- Only one task is new, so it is this one.
  have hself : f = c.tasks.length := by
    by_contra hne
    have hold : c.roster.task? f = some x := by
      rw [← hx]
      exact ((roster_addTask c (Task.newSource operators source) f).trans (if_neg hne)).symm
    exact Option.some_ne_none x (hold.symm.trans hnew)
  subst hself
  exact ⟨registered_of_newSource hc source, fun _ => rfl, fun p hp => nomatch hp⟩

theorem born_of_follow (hc : c.Coherent) (hnew : c.roster.task? f = none)
    (hf : (c.handle (.follow operators parents)).1.roster.HasMemory f) :
    (c.handle (.follow operators parents)).1.Born f operators none parents := by
  obtain ⟨x, hx, _⟩ := hf
  rcases handle_follow_cases c operators parents with hsame | ⟨c', f', hmade⟩
  · rw [hsame] at hx
    exact absurd (hx.symm.trans hnew) (Option.some_ne_none x)
  · rw [hmade] at hx ⊢
    have hlinked := linked_of_handle hmade
    have hself : f = f' := by
      rcases hlinked.task?_cases hx with ⟨hself, _⟩ | ⟨y, _, hy, _⟩ | ⟨_, hy⟩
      · exact hself
      · exact absurd (hy.symm.trans hnew) (Option.some_ne_none y)
      · exact absurd (hy.symm.trans hnew) (Option.some_ne_none x)
    subst hself
    refine ⟨registered_of_handle hc hmade, nofun, fun p hp => ?_⟩
    obtain ⟨y, hy, _⟩ := hlinked.free p hp
    obtain ⟨z, hz, _⟩ := exists_task?_of_roster hy
    have hlength : c.tasks.length ≤ f := by simpa [roster, task?] using hnew
    exact Nat.lt_of_lt_of_le (lt_of_task?_eq_some hz) hlength

/-- An event after which there is a new memory task has made it. -/
theorem exists_born_of_after? (hc : c.Coherent) (hafter : c.after? e = some c')
    (hnew : c.roster.task? f = none) (hf : c'.roster.HasMemory f) :
    ∃ operators source parents, c'.Born f operators source parents := by
  -- What leaves the kinds of all tasks alone makes no memory task.
  have hkept : c'.trait Task.isMemory false ≠ c.trait Task.isMemory false := by
    intro hkept
    rw [hasMemory_iff, hkept, ← hasMemory_iff] at hf
    obtain ⟨x, hx, _⟩ := hf
    exact Option.some_ne_none x (hx.symm.trans hnew)
  cases e with
  | moved step =>
    refine absurd (trait_step? Task.lasting_isMemory.steady (.inr fun x u isDummy => ?_) hafter)
      hkept
    rcases x with ⟨_, _, _, _, _, _, _ | _ | _⟩ <;> rfl
  | asked r =>
    injection hafter with hafter
    subst hafter
    by_cases hr : r.makesMemory = false
    · exact absurd (trait_handle Task.lasting_isMemory.steady c (.inl hr)
        (.inr Task.lasting_isMemory.setFollower)) hkept
    · cases r with
      | newSource operators source => exact ⟨_, _, _, born_of_newSource hc source hnew hf⟩
      | follow operators parents => exact ⟨_, _, _, born_of_follow hc hnew hf⟩
      | _ => exact absurd rfl hr

/-- Every memory task of a history was made in it. -/
theorem exists_born (hrun : (build s).run? events = some c) (hf : c.roster.HasMemory f) :
    ∃ before after c₁ operators source parents, events = before ++ after ∧
      (build s).run? before = some c₁ ∧ c₁.run? after = some c ∧
        c₁.Born f operators source parents := by
  induction events using List.reverseRecOn generalizing c with
  | nil =>
    injection hrun with hrun
    obtain ⟨x, hx, _⟩ := hf
    rw [← hrun, roster_build] at hx
    cases hx
  | append_singleton init e ih =>
    obtain ⟨c₂, hinit, hafter⟩ := run?_snoc.mp hrun
    have hc := (coherent_build s).run? hinit
    by_cases hold : c₂.roster.HasMemory f
    · obtain ⟨before, after, c₁, operators, source, parents, rfl, hbefore, hrest, hborn⟩ :=
        ih hinit hold
      refine ⟨before, after ++ [e], c₁, operators, source, parents, List.append_assoc .., hbefore,
        run?_snoc.mpr ⟨c₂, hrest, hafter⟩, hborn⟩
    · have hnew : c₂.roster.task? f = none := by
        by_contra hsome
        obtain ⟨x, hx⟩ := Option.ne_none_iff_exists'.mp hsome
        obtain ⟨y, hy, hxy⟩ := later_of_after? hc hafter f x hx
        obtain ⟨z, hz, hmemory⟩ := hf
        obtain rfl := Option.some.inj (hy.symm.trans hz)
        exact hold ⟨x, hx, hxy.isMemory_eq ▸ hmemory⟩
      obtain ⟨operators, source, parents, hborn⟩ := exists_born_of_after? hc hafter hnew hf
      exact ⟨init ++ [e], [], c, operators, source, parents, (List.append_nil _).symm, hrun, rfl,
        hborn⟩

/-! ## What feeds a memory task -/

omit [PatternLibrary] in
theorem feeds_iff {source : Option RowStream} (hfed : c.roster.Fed f operators source parents) :
    c.Feeds p f ↔ p ∈ parents := by
  constructor
  · intro hfeeds
    obtain ⟨x, hx, hfollower⟩ := Option.bind_eq_some_iff.mp hfeeds
    exact (hfed.follower p x.core (task?_roster hx)).mp hfollower
  · intro hp
    obtain ⟨y, hy⟩ := hfed.exist p hp
    obtain ⟨x, hx, rfl⟩ := exists_task?_of_roster hy
    exact Option.bind_eq_some_iff.mpr ⟨x, hx, (hfed.follower p x.core hy).mpr hp⟩

/-! ## What a memory task ends with -/

/-- In a history in which nothing is handed over twice, only tasks with a source are added. -/
theorem Once.source_of_added (honce : Once s events c) {source : Option RowStream}
    (hfed : c.roster.Fed f operators source parents) (hadded : f ∈ (build s).additions events) :
    source.isSome := by
  obtain ⟨x, m, hx, hm, hsource⟩ := honce.exists_source hadded
  obtain ⟨y, m', hy, hm', _, hsource', _⟩ := hfed.self
  obtain rfl := Option.some.inj ((task?_roster hx).symm.trans hy)
  obtain rfl := Option.some.inj ((x.core_memory?.trans hm).symm.trans hm')
  exact hsource' ▸ hsource

namespace Born

variable {before after : List Event} {source : Option RowStream} {c₁ : Cluster}
  (hborn : c₁.Born f operators source parents) (hbefore : (build s).run? before = some c₁)
  (hafter : c₁.run? after = some c) (hhands : ∀ e ∈ before ++ after, e.isHandsOff = true)
include hborn hafter hhands

theorem fed : c.roster.Fed f operators source parents :=
  (hborn.registered.fed_of_run? (fun e he => hhands e (List.mem_append_right _ he)) hafter).1

variable (honce : Once s (before ++ after) c)
include hbefore honce

theorem source_of_added (hadded : f ∈ c₁.additions after) : source.isSome := by
  refine honce.source_of_added (hborn.fed hafter hhands) ?_
  rw [additions, trace_append _ hbefore]
  exact List.mem_append_right _ hadded

omit hborn in
theorem count_endings_le_one (t : TaskId) : (c₁.endings after).count t ≤ 1 := by
  have hrun : (build s).run? (before ++ after) = some c := by
    rw [run?_append, hbefore, Option.bind_some, hafter]
  have hall := honce.count_endings_le_one hhands hrun t
  -- What happened before the task was made can only add to what happened after.
  rw [endings, trace_append _ hbefore, List.count_append] at hall
  exact Nat.le_trans (Nat.le_add_left _ _) hall

/-- The result of a memory task is that of its operators over its source and the results of its
parents. -/
theorem served : Served c.roster f operators source parents :=
  hborn.registered.served_of_added (fun e he => hhands e (List.mem_append_right _ he)) hafter
    (fun hadded => hborn.unfed (hborn.source_of_added hbefore hafter hhands honce hadded))
    fun p _ => count_endings_le_one hbefore hafter hhands honce p

/-- A memory task that has a result has a source, or all its parents, of which there is one at
least, have ended and are sync. -/
theorem done_of_result (hresult : (c.roster.result? f).isSome) : source.isSome ∨ parents ≠ [] ∧
    ∀ p ∈ parents, (c.roster.HasStorage p ∨ c.roster.HasMemory p) ∧ c.isDone p = true := by
  have hevents : ∀ e ∈ after, e.isHandsOff = true :=
    fun e he => hhands e (List.mem_append_right _ he)
  have hends : ∀ p ∈ parents, (c₁.endings after).count p ≤ 1 :=
    fun p _ => count_endings_le_one hbefore hafter hhands honce p
  by_cases hadded : f ∈ c₁.additions after
  · exact .inl (hborn.source_of_added hbefore hafter hhands honce hadded)
  · obtain ⟨hpos, hreleased⟩ := hborn.registered.released_of_result hevents hafter hadded hresult
    refine .inr ⟨List.length_pos_iff.mp hpos, fun p hp => ⟨?_, ?_⟩⟩
    · exact kind_of_endings hborn.registered.coherent hafter
        (Registered.reported_of_length_le hends hreleased p hp).1
    · exact isDone_iff.mpr
        (hborn.registered.parents_of_reported hevents hafter hends hreleased p hp)

end Born

/-- A memory task without a result still lists the parents it was made with. -/
theorem exists_born_of_unended (hrun : (build s).run? events = some c)
    (hhands : ∀ e ∈ events, e.isHandsOff = true) {x : Task} {m : MemoryShape}
    (hx : c.task? f = some x) (hm : x.memory? = some m) (hnone : x.result = none) :
    ∃ before after c₁, events = before ++ after ∧ (build s).run? before = some c₁ ∧
      c₁.run? after = some c ∧ c₁.Born f x.operators m.source m.parents := by
  have hf : c.roster.HasMemory f :=
    ⟨x.core, task?_roster hx, x.core_isMemory.trans (Option.isSome_of_eq_some hm)⟩
  obtain ⟨before, after, c₁, operators, source, parents, rfl, hbefore, hafter, hborn⟩ :=
    exists_born hrun hf
  refine ⟨before, after, c₁, rfl, hbefore, hafter, ?_⟩
  obtain ⟨y, m', hy, hm', hoperators, hsource, _, hparents⟩ := (hborn.fed hafter hhands).self
  obtain rfl := Option.some.inj ((task?_roster hx).symm.trans hy)
  obtain rfl := Option.some.inj ((x.core_memory?.trans hm).symm.trans hm')
  obtain rfl : x.operators = operators := hoperators
  obtain rfl : m.source = source := hsource
  obtain rfl : m.parents = parents := hparents (x.core_result.trans hnone)
  exact hborn

/-- A memory task of a history in which nothing is handed over twice: if it has a result, it is fed
by storage and memory tasks that have results, and its own is that of its operators over its source
and theirs. -/
theorem exists_lineage (hrun : (build s).run? events = some c)
    (hhands : ∀ e ∈ events, e.isHandsOff = true) (honce : Once s events c)
    (hf : c.roster.HasMemory f) :
    ∃ (operators : List Operator) (source : Option RowStream) (parents : List TaskId),
      (∀ p, c.Feeds p f ↔ p ∈ parents) ∧ ∀ r, c.result? f = some r →
        (∀ p ∈ parents, c.roster.HasStorage p ∨ c.roster.HasMemory p) ∧
          ∃ rs, parents.map c.result? = rs.map some ∧ r = Task.fedResult operators source rs := by
  obtain ⟨before, after, c₁, operators, source, parents, rfl, hbefore, hafter, hborn⟩ :=
    exists_born hrun hf
  refine ⟨operators, source, parents, fun p => feeds_iff (hborn.fed hafter hhands), fun r hr => ?_⟩
  have hresult := (result?_roster c f).trans hr
  refine ⟨fun p hp => ?_, ?_⟩
  · rcases hborn.done_of_result hbefore hafter hhands honce (Option.isSome_of_eq_some hresult) with
      hsource | ⟨_, hparents⟩
    · rw [hborn.unfed hsource] at hp
      cases hp
    · exact (hparents p hp).1
  · obtain ⟨rs, hrs, heq⟩ := hborn.served hbefore hafter hhands honce r hresult
    exact ⟨rs, (List.map_congr_left fun p _ => (result?_roster c p).symm).trans hrs, heq⟩

/-- A storage task and a task with a source are made, then a follower of both, and a follower of
that. -/
def chainPlan : List Event :=
  sampleParents ++ [.asked (.follow [] [0, 1]), .asked (.follow [] [2])]

/-- All of them run; the driver of the storage task panics. -/
def chainEnds : List Event :=
  sampleEnds ++ [.moved (.runMemory 3 Duration.zero)]

end Cluster
end SeriesExec
