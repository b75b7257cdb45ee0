import Mathlib.Data.List.Chain
import Mathlib.Data.List.Perm.Subperm
import Mathlib.Logic.Relation
import SeriesExec.Proofs.Lineage

/-!
# Links — how followers hang together

A task that is to be fed by others is made the follower of all of them at once, or it is not made at
all.  It is newer than all of them, so nobody follows itself, however long a chain of followers is.
This file defines, in the namespace `Cluster`:

* `Cluster.follower?` — the follower of a task;
* `Cluster.links` — the followers that a history makes, each with its parents;
* `Cluster.LinkedBy` — the followers in a cluster are just those of a list;
* `Cluster.GoesOn` — a worker that goes from one released follower to the next.

Main statement: a request for a follower links it to all of its parents or changes nothing, so in
any history a task is followed by what was made for it, and a worker goes on at most as often as
followers were made (`follow_links_all_or_none`).
-/

namespace SeriesExec

open Traffic Roster

theorem Task.steady_follower : Task.Steady Task.follower none where
  setResult _ _ := rfl
  setSpan _ _ := rfl
  countParent x := by rcases x with ⟨_, _, _, _, _, _, _ | _ | _⟩ <;> rfl
  forgetParents x := by rcases x with ⟨_, _, _, _, _, _, _ | _ | _⟩ <;> rfl
  newStorage _ _ _ _ _ := rfl
  newGlobal _ := rfl

namespace Cluster

variable {s : Setup} {events : List Event} {e : Event} {operators : List Operator}
  {parents before rest : List TaskId} {ls : List (TaskId × List TaskId)} {p t f : TaskId}
  {c c' : Cluster}

/-- The follower of a task, if it has one. -/
def follower? (c : Cluster) (t : TaskId) : Option TaskId :=
  (c.task? t).bind Task.follower

/-! ## A single request -/

/-- Different tasks that have no followers may be the parents of a new one. -/
theorem followFault_of_free (hnodup : parents.Nodup)
    (hfree : ∀ p ∈ parents, p ∉ before ∧ c.follower? p = none) :
    c.followFault before parents = none := by
  induction parents generalizing before with
  | nil => rfl
  | cons q rest ih =>
    obtain ⟨hq, hrest⟩ := List.nodup_cons.mp hnodup
    obtain ⟨hbefore, hnone⟩ := hfree q List.mem_cons_self
    have hnew : ¬before.contains q = true := by simpa using hbefore
    have huntaken : ¬((c.task? q).bind Task.follower).isSome = true := by
      rw [follower?] at hnone
      simp [hnone]
    rw [followFault, if_neg hnew, if_neg huntaken]
    apply ih hrest
    intro p hp
    obtain ⟨hold, hp'⟩ := hfree p (List.mem_cons_of_mem q hp)
    refine ⟨?_, hp'⟩
    intro hmem
    rcases List.mem_append.mp hmem with hmem | hmem
    · exact hold hmem
    · exact hq (List.mem_singleton.mp hmem ▸ hp)

theorem follower?_roster (c : Cluster) (t : TaskId) :
    (c.roster.task? t).bind Task.follower = c.follower? t := by
  rw [roster, follower?]
  dsimp only
  cases c.task? t <;> rfl

/-- The parents have the new follower, and all other tasks have the followers they had. -/
theorem follower?_of_linked (h : Linked c.roster c'.roster f operators parents) (t : TaskId) :
    c'.follower? t = if t ∈ parents then some f else c.follower? t := by
  rw [← follower?_roster, ← follower?_roster]
  by_cases ht : t ∈ parents
  · obtain ⟨x, hx, hnone⟩ := h.free t ht
    rw [if_pos ht, h.parent t ht, hx]
    simp [Task.setFollower, hnone]
  · rw [if_neg ht]
    by_cases hself : t = f
    · rw [hself, h.self, h.new]
      rfl
    · rw [h.other t hself ht]

theorem follower?_of_parent (h : Linked c.roster c'.roster f operators parents)
    (hp : p ∈ parents) : c.follower? p = none := by
  obtain ⟨x, hx, hnone⟩ := h.free p hp
  rw [← follower?_roster, hx]
  exact hnone

/-- Who feeds a task afterwards is a parent of the new one, or fed it before. -/
theorem feeds_of_linked (h : Linked c.roster c'.roster f operators parents) (p g : TaskId) :
    c'.Feeds p g ↔ p ∈ parents ∧ g = f ∨ p ∉ parents ∧ c.Feeds p g := by
  change c'.follower? p = some g ↔ _
  rw [follower?_of_linked h p]
  by_cases hp : p ∈ parents
  · simp [hp, eq_comm]
  · simp only [hp, if_false, false_and, not_false_eq_true, true_and, false_or]
    rfl

/-- A request for a follower of tasks that are free makes it. -/
theorem handle_follow_of_free [PatternLibrary] (operators : List Operator)
    (hexist : ∀ p ∈ parents, (c.task? p).isSome) (hnodup : parents.Nodup)
    (hfree : ∀ p ∈ parents, c.follower? p = none) :
    ∃ c', c.handle (.follow operators parents) = (c', .made c.tasks.length) := by
  have hfits : c.fits (.follow operators parents) = true := List.all_eq_true.mpr hexist
  have hfault : c.followFault [] parents = none :=
    followFault_of_free hnodup fun p hp => ⟨List.not_mem_nil, hfree p hp⟩
  have hfollow : ∃ c', c.follow operators parents = .ok (c', c.tasks.length) := by
    rw [follow, hfault]
    exact ⟨_, rfl⟩
  obtain ⟨c', hfollow⟩ := hfollow
  refine ⟨c', ?_⟩
  rw [handle, if_pos hfits, obey, hfollow]

/-- A request for a follower of tasks of which one is not free is refused. -/
theorem handle_follow_of_taken [PatternLibrary] (operators : List Operator)
    (hexist : ∀ p ∈ parents, (c.task? p).isSome)
    (htaken : ¬(parents.Nodup ∧ ∀ p ∈ parents, c.follower? p = none)) :
    ∃ fault, c.handle (.follow operators parents) = (c, .refused (.fault fault)) := by
  have hfits : c.fits (.follow operators parents) = true := List.all_eq_true.mpr hexist
  cases hfault : c.followFault [] parents with
  | none =>
    obtain ⟨hnodup, hfree⟩ := followFault_eq_none hfault
    exact absurd ⟨hnodup, fun p hp => (hfree p hp).2⟩ htaken
  | some fault =>
    have hfollow : c.follow operators parents = .error fault := by rw [follow, hfault]
    refine ⟨fault, ?_⟩
    rw [handle, if_pos hfits, obey, hfollow]

/-- The new follower waits for all of its parents. -/
theorem exists_memory_of_linked (h : Linked c.roster c'.roster f operators parents) :
    ∃ m, (c'.task? f).bind Task.memory? = some m ∧ m.parents = parents ∧
      m.required = parents.length := by
  obtain ⟨x, hx, hcore⟩ := exists_task?_of_roster h.self
  have hmemory : x.memory? = some ⟨parents, parents.length, 0, none⟩ := by
    rw [← x.core_memory?, hcore]
    rfl
  refine ⟨⟨parents, parents.length, 0, none⟩, ?_, rfl, rfl⟩
  rw [hx]
  exact hmemory

/-! ## Histories -/

/-- The followers that an event makes, each with its parents. -/
def linksBy [PatternLibrary] (c : Cluster) : Event → List (TaskId × List TaskId)
  | .asked (.follow operators parents) =>
    match (c.handle (.follow operators parents)).2 with
    | .made f => [(f, parents)]
    | _ => []
  | _ => []

/-- The followers that a history makes, each with its parents. -/
def links [PatternLibrary] (c : Cluster) (events : List Event) : List (TaskId × List TaskId) :=
  c.trace linksBy events

/-- The followers are those of the list, and each is newer than its parents. -/
structure LinkedBy (c : Cluster) (ls : List (TaskId × List TaskId)) : Prop where
  fed : ∀ f parents, (f, parents) ∈ ls → ∀ p, c.Feeds p f ↔ p ∈ parents
  listed : ∀ p f, c.Feeds p f → ∃ parents, (f, parents) ∈ ls
  older : ∀ p f, c.Feeds p f → p < f
  made : ∀ f parents, (f, parents) ∈ ls → f < c.tasks.length

/-- What links no tasks leaves all followers alone. -/
theorem follower?_after? [PatternLibrary] (he : ∀ r, e = .asked r → r.makesLinks = false)
    (h : c.after? e = some c') : c'.follower? = c.follower? := by
  have htrait : ∀ c : Cluster, c.follower? = c.trait Task.follower none := by
    intro c
    funext t
    rw [follower?, trait]
    cases c.task? t <;> rfl
  rw [htrait, htrait]
  cases e with
  | asked r =>
    injection h with h
    subst h
    exact trait_handle Task.steady_follower c (.inr ⟨fun _ _ => rfl, fun _ _ => rfl⟩)
      (.inl (he r rfl))
  | moved step =>
    refine trait_step? Task.steady_follower (.inr ?_) h
    intro x u isDummy
    rcases x with ⟨_, _, _, _, _, _, _ | _ | _⟩ <;> rfl

/-- Tasks stay. -/
theorem lt_length_of_after? [PatternLibrary] (hc : c.Coherent) (h : c.after? e = some c')
    (ht : t < c.tasks.length) : t < c'.tasks.length := by
  have hx : c.task? t = some c.tasks[t] := List.getElem?_eq_getElem ht
  obtain ⟨y, hy, _⟩ := later_task? (later_of_after? hc h) hx
  exact lt_of_task?_eq_some hy

theorem LinkedBy.of_kept (h : c.LinkedBy ls) (hkept : c'.follower? = c.follower?)
    (hlength : ∀ t < c.tasks.length, t < c'.tasks.length) : c'.LinkedBy ls := by
  have hfeeds : ∀ p f, c'.Feeds p f ↔ c.Feeds p f := by
    intro p f
    exact Eq.congr_left (congrFun hkept p)
  constructor
  · intro f parents hmem p
    rw [hfeeds]
    exact h.fed f parents hmem p
  · intro p f hp
    exact h.listed p f ((hfeeds p f).mp hp)
  · intro p f hp
    exact h.older p f ((hfeeds p f).mp hp)
  · intro f parents hmem
    exact hlength f (h.made f parents hmem)

theorem LinkedBy.linked (h : c.LinkedBy ls)
    (hlength : ∀ t < c.tasks.length, t < c'.tasks.length)
    (hlinked : Linked c.roster c'.roster f operators parents) :
    c'.LinkedBy (ls ++ [(f, parents)]) := by
  have hnew : c.tasks.length ≤ f := by simpa [roster, task?] using hlinked.new
  -- Somebody is followed after the request as before, or as a parent of the new follower.
  have hcases := feeds_of_linked hlinked
  have hlisted : ∀ g gs, (g, gs) ∈ ls → g ≠ f := by
    intro g gs hmem heq
    exact absurd (h.made g gs hmem) (Nat.not_lt.mpr (heq ▸ hnew))
  constructor
  · intro g gs hmem p
    rw [hcases]
    rcases List.mem_append.mp hmem with hold | hself
    · rw [← h.fed g gs hold p]
      constructor
      · rintro (⟨_, heq⟩ | ⟨_, hfeeds⟩)
        · exact absurd heq (hlisted g gs hold)
        · exact hfeeds
      · intro hfeeds
        refine .inr ⟨?_, hfeeds⟩
        intro hp
        -- The parents of the new follower had none before.
        exact Option.some_ne_none g (hfeeds.symm.trans (follower?_of_parent hlinked hp))
    · obtain ⟨rfl, rfl⟩ := Prod.mk.inj (List.mem_singleton.mp hself)
      constructor
      · rintro (⟨hp, _⟩ | ⟨_, hfeeds⟩)
        · exact hp
        · obtain ⟨gs', hold⟩ := h.listed p g hfeeds
          exact absurd rfl (hlisted g gs' hold)
      · intro hp
        exact .inl ⟨hp, rfl⟩
  · intro p g hfeeds
    rcases (hcases p g).mp hfeeds with ⟨_, rfl⟩ | ⟨_, hold⟩
    · exact ⟨parents, List.mem_append_right _ List.mem_cons_self⟩
    · obtain ⟨gs, hmem⟩ := h.listed p g hold
      exact ⟨gs, List.mem_append_left _ hmem⟩
  · intro p g hfeeds
    rcases (hcases p g).mp hfeeds with ⟨hp, rfl⟩ | ⟨_, hold⟩
    · obtain ⟨x, hx, _⟩ := hlinked.free p hp
      obtain ⟨y, hy, _⟩ := exists_task?_of_roster hx
      exact Nat.lt_of_lt_of_le (lt_of_task?_eq_some hy) hnew
    · exact h.older p g hold
  · intro g gs hmem
    rcases List.mem_append.mp hmem with hold | hself
    · exact hlength g (h.made g gs hold)
    · obtain ⟨rfl, rfl⟩ := Prod.mk.inj (List.mem_singleton.mp hself)
      obtain ⟨y, hy, _⟩ := exists_task?_of_roster hlinked.self
      exact lt_of_task?_eq_some hy

/-- A request for a follower makes one that is listed, or nothing. -/
theorem linksBy_follow_cases [PatternLibrary] (c : Cluster) (operators : List Operator)
    (parents : List TaskId) :
    (c.handle (.follow operators parents)).1 = c ∧
        c.linksBy (.asked (.follow operators parents)) = [] ∨
      ∃ c' f, c.handle (.follow operators parents) = (c', .made f) ∧
        c.linksBy (.asked (.follow operators parents)) = [(f, parents)] := by
  rcases handle_follow_cases c operators parents with hsame | ⟨c', f, hmade⟩
  · refine .inl ⟨hsame, ?_⟩
    rw [linksBy]
    split
    · rename_i f hreply
      -- A follower that was made is a task that was not there before.
      have hmade : c.handle (.follow operators parents) = (c, .made f) := Prod.ext hsame hreply
      have hlinked := linked_of_handle hmade
      exact absurd (hlinked.self.symm.trans hlinked.new) (Option.some_ne_none _)
    · rfl
  · refine .inr ⟨c', f, hmade, ?_⟩
    rw [linksBy, hmade]

theorem LinkedBy.after? [PatternLibrary] (hc : c.Coherent) (h : c.LinkedBy ls)
    (he : ∀ t f, e ≠ .asked (.setFollower t f)) (hafter : c.after? e = some c') :
    c'.LinkedBy (ls ++ c.linksBy e) := by
  have hlength : ∀ t < c.tasks.length, t < c'.tasks.length :=
    fun t => lt_length_of_after? hc hafter
  by_cases hlinks : ∀ r, e = .asked r → r.makesLinks = false
  · have hnone : c.linksBy e = [] := by
      cases e with
      | moved step => rfl
      | asked r =>
        have hr := hlinks r rfl
        cases r <;> first | rfl | cases hr
    rw [hnone, List.append_nil]
    exact h.of_kept (follower?_after? hlinks hafter) hlength
  · push Not at hlinks
    obtain ⟨r, rfl, hr⟩ := hlinks
    cases r with
    | follow operators parents =>
      injection hafter with hafter
      rcases linksBy_follow_cases c operators parents with ⟨hsame, hnone⟩ | ⟨c₁, f, hmade, hone⟩
      · rw [hnone, List.append_nil, ← hafter, hsame]
        exact h
      · rw [hmade] at hafter
        subst hafter
        rw [hone]
        exact h.linked hlength (linked_of_handle hmade)
    | setFollower t f => exact absurd rfl (he t f)
    | _ => exact absurd rfl hr

/-- Over a history the followers are those that were made. -/
theorem linkedBy_of_run? [PatternLibrary] (hrun : (build s).run? events = some c)
    (hevents : ∀ t f, .asked (.setFollower t f) ∉ events) :
    c.LinkedBy ((build s).links events) := by
  induction events using List.reverseRecOn generalizing c with
  | nil =>
    injection hrun with hrun
    have hnone : ∀ p f, ¬c.Feeds p f := by
      intro p f hfeeds
      change c.follower? p = some f at hfeeds
      rw [← follower?_roster, ← hrun, roster_build] at hfeeds
      cases hfeeds
    constructor
    · intro f parents hmem
      cases hmem
    · exact fun p f hfeeds => absurd hfeeds (hnone p f)
    · exact fun p f hfeeds => absurd hfeeds (hnone p f)
    · intro f parents hmem
      cases hmem
  | append_singleton init e ih =>
    obtain ⟨c₁, hinit, hafter⟩ := run?_snoc.mp hrun
    have hfirst := ih hinit fun t f hmem => hevents t f (List.mem_append_left _ hmem)
    rw [links, trace_snoc linksBy hinit hafter]
    refine hfirst.after? ((coherent_build s).run? hinit) ?_ hafter
    rintro t f rfl
    exact hevents t f (List.mem_append_right _ List.mem_cons_self)

/-! ## Chains of followers -/

/-- Along a chain the tasks are newer and newer. -/
theorem LinkedBy.pairwise_lt (h : c.LinkedBy ls) {l : List TaskId} (hl : l.IsChain c.Feeds) :
    l.Pairwise (· < ·) :=
  (hl.imp fun p f => h.older p f).pairwise

/-- A chain is not longer than there are followers, apart from its first task. -/
theorem LinkedBy.length_le (h : c.LinkedBy ls) (hl : (t :: rest).IsChain c.Feeds) :
    rest.length ≤ ls.length := by
  have hnodup : rest.Nodup := (h.pairwise_lt hl).of_cons.nodup
  have hlisted : ∀ t : TaskId, (t :: rest).IsChain c.Feeds → rest ⊆ ls.map Prod.fst := by
    clear hl hnodup
    induction rest with
    | nil => exact fun t _ => List.nil_subset _
    | cons f rest ih =>
      intro t hl
      obtain ⟨hfeeds, hrest⟩ := List.isChain_cons_cons.mp hl
      obtain ⟨parents, hmem⟩ := h.listed t f hfeeds
      exact List.cons_subset.mpr ⟨List.mem_map_of_mem hmem, ih f hrest⟩
  simpa using (hnodup.subperm (hlisted t hl)).length_le

/-- Nobody follows itself. -/
theorem LinkedBy.acyclic (h : c.LinkedBy ls) (t : TaskId) :
    ¬Relation.TransGen c.Feeds t t := by
  have hnewer : ∀ a b : TaskId, Relation.TransGen c.Feeds a b → a < b := by
    intro a b hab
    induction hab with
    | single hfeeds => exact h.older _ _ hfeeds
    | tail _ hfeeds ih => exact Nat.lt_trans ih (h.older _ _ hfeeds)
  exact fun hcycle => Nat.lt_irrefl t (hnewer t t hcycle)

/-! ## A worker that goes on -/

section

variable [PatternLibrary]

/-- The events lead from the first cluster to the last.  In them a worker that has `t` in hand runs
it and goes on with the tasks of `rest` in turn, each of which has been released by the one before,
and in between anything may happen. -/
inductive GoesOn : Cluster → TaskId → List TaskId → List Event → Cluster → Prop where
  | stops (c : Cluster) (t : TaskId) : GoesOn c t [] [] c
  | waits {c c₁ c' : Cluster} {t : TaskId} {rest : List TaskId} {events : List Event} (e : Event)
      (hafter : c.after? e = some c₁) (hlater : GoesOn c₁ t rest events c') :
      GoesOn c t rest (e :: events) c'
  | runs {c c₁ c' : Cluster} {t f : TaskId} {rest : List TaskId} {events : List Event}
      (elapsed : Duration) (hrun : c.step? (.runMemory t elapsed) = some c₁)
      (hreleased : ((c.runStaged t elapsed).release t).2 = some f)
      (hlater : GoesOn c₁ f rest events c') :
      GoesOn c t (f :: rest) (.moved (.runMemory t elapsed) :: events) c'

/-- A worker can always run the task that it has in hand. -/
theorem isSome_runMemory? (h : t ∈ c.memory.running) (elapsed : Duration) :
    (c.step? (.runMemory t elapsed)).isSome := by
  rw [step?, runMemory?, if_pos (List.contains_iff_mem.mpr h)]
  rfl

theorem GoesOn.run? (h : c.GoesOn t rest events c') : c.run? events = some c' := by
  induction h with
  | stops c t => rfl
  | waits e hafter _ ih => rw [Cluster.run?, hafter, Option.bind_some, ih]
  | runs elapsed hrun _ _ ih =>
    have hafter := hrun
    rw [Cluster.run?, after?, hafter, Option.bind_some, ih]

/-- A task that goes on with another has it as its follower. -/
theorem feeds_of_released {elapsed : Duration} {t f : TaskId}
    (h : ((c.runStaged t elapsed).release t).2 = some f) : c.Feeds t f := by
  have hfollower : (c.runStaged t elapsed).follower? t = some f := by
    rw [release] at h
    split at h
    · cases h
    · rename_i g hg
      dsimp only at h
      split at h
      · rw [follower?, hg, h]
      · cases h
  cases hx : c.task? t with
  | none =>
    have hnone : (c.runStaged t elapsed).task? t = none := by
      rw [runStaged, task?_modifyTask, if_pos rfl, executeMemory, hx]
      dsimp only
      rw [hx]
      rfl
    rw [follower?, hnone] at hfollower
    cases hfollower
  | some x =>
    rw [follower?, task?_runStaged hx, Option.bind_some] at hfollower
    rw [Feeds, hx, Option.bind_some, ← hfollower]
    rcases x with ⟨_, _, _, _, _, _, _ | _ | _⟩ <;> rfl

/-- The tasks that a worker goes on with are a chain of followers. -/
theorem GoesOn.isChain (hc : c.Coherent) (h : c.GoesOn t rest events c') :
    (t :: rest).IsChain c'.Feeds := by
  induction h with
  | stops c t => exact .singleton t
  | waits e hafter _ ih => exact ih (hc.after? hafter)
  | @runs c c₁ c' t f rest events elapsed hrun hreleased hlater ih =>
    have hafter : c.after? (.moved (.runMemory t elapsed)) = some c₁ := hrun
    refine .cons_cons ?_ (ih (hc.after? hafter))
    -- The link was there when the task was run, and links stay.
    obtain ⟨x, hx, hfollower⟩ := Option.bind_eq_some_iff.mp (feeds_of_released hreleased)
    have hlater' := (later_of_after? hc hafter).trans
      (later_of_run? (hc.after? hafter) hlater.run?)
    obtain ⟨y, hy, hxy⟩ := later_task? hlater' hx
    rw [Feeds, hy]
    exact hxy.follower f hfollower

/-! ## All requests for followers -/

/-- A request for a follower of tasks that are there, in any cluster: if the tasks are different and
none has a follower, a new task is made that waits for all of them, they have it as their follower,
and all others keep what they had; if not, the request is refused and nothing changes.  So in any
history in which nobody is given a follower by hand, what was made for some parents follows just
these, nothing else follows anybody, and no two were made for one parent; whoever is followed is
older than its follower; a chain of followers has at most as many as were made and never comes back
to where it started; and a worker can always run the task that it has in hand, and goes on at most
as often as followers were made, whatever happens in the meantime. -/
theorem follow_links_all_or_none :
    (∀ (c : Cluster) (operators : List Operator) (parents : List TaskId),
      (∀ p ∈ parents, (c.task? p).isSome) →
      (parents.Nodup ∧ (∀ p ∈ parents, c.follower? p = none) →
        ∃ c' f m, c.handle (.follow operators parents) = (c', .made f) ∧ c.task? f = none ∧
          (∀ t, c'.follower? t = if t ∈ parents then some f else c.follower? t) ∧
          (c'.task? f).bind Task.memory? = some m ∧ m.parents = parents ∧
          m.required = parents.length) ∧
      (¬(parents.Nodup ∧ ∀ p ∈ parents, c.follower? p = none) →
        ∃ fault, c.handle (.follow operators parents) = (c, .refused (.fault fault)))) ∧
    ∀ (s : Setup) (events : List Event) (c : Cluster), (build s).run? events = some c →
      (∀ t f, .asked (.setFollower t f) ∉ events) →
      (∀ f parents, (f, parents) ∈ (build s).links events →
        ∀ p, c.follower? p = some f ↔ p ∈ parents) ∧
      (∀ f f' parents parents', (f, parents) ∈ (build s).links events →
        (f', parents') ∈ (build s).links events → ∀ p ∈ parents, p ∈ parents' → f = f') ∧
      (∀ p f, c.follower? p = some f →
        p < f ∧ ∃ parents, (f, parents) ∈ (build s).links events) ∧
      (∀ t rest, (t :: rest).IsChain (fun p f => c.follower? p = some f) →
        rest.length ≤ ((build s).links events).length) ∧
      (∀ t, ¬Relation.TransGen (fun p f => c.follower? p = some f) t t) ∧
      (∀ t ∈ c.memory.running, ∀ elapsed, (c.step? (.runMemory t elapsed)).isSome) ∧
      ∀ before after c₀ t rest, events = before ++ after → (build s).run? before = some c₀ →
        c₀.GoesOn t rest after c → rest.length ≤ ((build s).links events).length := by
  constructor
  · intro c operators parents hexist
    constructor
    · rintro ⟨hnodup, hfree⟩
      obtain ⟨c', hmade⟩ := handle_follow_of_free operators hexist hnodup hfree
      have hlinked := linked_of_handle hmade
      obtain ⟨m, hm, hparents, hrequired⟩ := exists_memory_of_linked hlinked
      exact ⟨c', _, m, hmade, List.getElem?_eq_none (Nat.le_refl _), follower?_of_linked hlinked,
        hm, hparents, hrequired⟩
    · intro htaken
      exact handle_follow_of_taken operators hexist htaken
  · intro s events c hrun hevents
    have hlinked := linkedBy_of_run? hrun hevents
    refine ⟨hlinked.fed, ?_, ?_, ?_, hlinked.acyclic, ?_, ?_⟩
    · intro f f' parents parents' hmem hmem' p hp hp'
      have hfeeds : c.follower? p = some f := (hlinked.fed f parents hmem p).mpr hp
      have hfeeds' : c.follower? p = some f' := (hlinked.fed f' parents' hmem' p).mpr hp'
      exact Option.some.inj (hfeeds.symm.trans hfeeds')
    · intro p f hfeeds
      exact ⟨hlinked.older p f hfeeds, hlinked.listed p f hfeeds⟩
    · intro t rest hchain
      exact hlinked.length_le hchain
    · intro t ht elapsed
      exact isSome_runMemory? ht elapsed
    · rintro before after c₀ t rest rfl hbefore hgoes
      exact hlinked.length_le (hgoes.isChain ((coherent_build s).run? hbefore))

end

theorem follow_links_all_or_none_sample :
    ∃ c ∈ (build sampleSetup).run? chainPlan,
      (∀ p, c.follower? p = some 2 ↔ p ∈ [0, 1]) ∧
      (∃ fault, c.handle (.follow [] [3, 2]) = (c, .refused (.fault fault))) ∧
      ∃ c' f, c.handle (.follow [] [3]) = (c', .made f) := by
  obtain ⟨c, hrun, hmade, hexist, htaken, hfree⟩ :
      ∃ c ∈ (build sampleSetup).run? chainPlan,
        (2, [0, 1]) ∈ (build sampleSetup).links chainPlan ∧
        (∀ p ∈ [3, 2], (c.task? p).isSome) ∧ c.follower? 2 ≠ none ∧ c.follower? 3 = none := by
    decide
  have hevents : ∀ t f, .asked (.setFollower t f) ∉ chainPlan := by
    intro t f
    simp [chainPlan, sampleParents]
  refine ⟨c, hrun, ?_, ?_, ?_⟩
  · exact (follow_links_all_or_none.2 _ _ c hrun hevents).1 2 [0, 1] hmade
  · refine (follow_links_all_or_none.1 c [] [3, 2] hexist).2 ?_
    rintro ⟨_, hall⟩
    exact htaken (hall 2 (by decide))
  · have hone : ∀ p ∈ [3], (c.task? p).isSome := by
      intro p hp
      exact hexist p (List.mem_cons.mpr (.inl (List.mem_singleton.mp hp)))
    obtain ⟨c', f, m, hmade', _⟩ := (follow_links_all_or_none.1 c [] [3] hone).1
      ⟨List.nodup_singleton 3, fun p hp => List.mem_singleton.mp hp ▸ hfree⟩
    exact ⟨c', f, hmade'⟩

end Cluster
end SeriesExec
