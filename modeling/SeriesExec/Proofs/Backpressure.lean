import SeriesExec.Proofs.EventTraffic

/-!
# Backpressure — which deliveries the loops refuse

A loop that takes a delivery hands it to the workers of its engine, unless the engine is not ready
or too many deliveries wait for its workers already.  This file defines:

* `Traffic.Resolved` — a loop that serves has a ready engine;
* `Traffic.Bounded` — no engine has more deliveries waiting than it may, and one;
* `Traffic.Classified` — the errors that deliveries end with;
* `Cluster.Refused` and `Cluster.Submitted` — what a loop does with a delivery;
* `Cluster.Decided` — which of these it does, and when.

Main statement: what loops decide after any history, and what becomes of the deliveries that they
refuse (`dispatch_decided`).
-/

namespace SeriesExec

/-- Whatever a driver does, a task that fails for it has failed in execution. -/
theorem Outcome.kind_of_result {outcome : Outcome} {err : Error}
    (h : outcome.result = .error err) : err.kind = .execution := by
  rcases outcome with (cause | _) | _
  · simp only [result, Except.error.injEq] at h
    subst h
    split
    · assumption
    · rfl
  · cases h
  · cases h
    rfl

namespace Traffic

variable {τ τ' : Traffic} {new : List Delivery} {calls : Prop}

/-! ## Loops that serve -/

/-- A loop that serves has found its engine, which stays ready. -/
def Resolved (τ : Traffic) : Prop :=
  ∀ u l, τ.unit? u = some l → l.phase = .serving → (τ.engine? l.engine).isSome

theorem Shift.isSome_engine? (horderly : τ.Orderly) (h : Shift calls τ new τ') {e : EngineId}
    (he : (τ.engine? e).isSome) : (τ'.engine? e).isSome := by
  obtain ⟨s, hs⟩ := Option.isSome_iff_exists.mp he
  obtain ⟨s', hs', _⟩ := h.engine?_some horderly hs
  exact Option.isSome_of_eq_some hs'

/-- Changing a unit without its engine and its phase makes no loop serve. -/
theorem Resolved.mapUnit (h : τ.Resolved) {w : UnitId} {f : UnitLoop → UnitLoop}
    (hid : ∀ l, (f l).id = l.id) (hengine : ∀ l, (f l).engine = l.engine)
    (hphase : ∀ l, τ.unit? w = some l → (f l).phase = .serving →
      l.phase = .serving ∨ (τ.engine? l.engine).isSome) : (τ.mapUnit w f).Resolved := by
  intro u l hl hserving
  rw [unit?_mapUnit τ w hid] at hl
  split at hl
  · rename_i hu
    subst hu
    obtain ⟨m, hm, rfl⟩ := Option.map_eq_some_iff.mp hl
    rw [hengine]
    rcases hphase m hm hserving with hold | hready
    · exact h u m hm hold
    · exact hready
  · exact h u l hl hserving

theorem Resolved.shift (horderly : τ.Orderly) (hshift : Shift calls τ new τ')
    (h : τ.Resolved) : τ'.Resolved := by
  have hstay := fun {e : EngineId} => hshift.isSome_engine? horderly (e := e)
  have hkept : ∀ {τ₁ : Traffic}, τ₁.Resolved → τ₁.engine? = τ.engine? → τ'.unit? = τ₁.unit? →
      τ'.Resolved := by
    intro τ₁ hresolved hengines hunits u l hl hserving
    have hready := hresolved u l (hunits ▸ hl) hserving
    rw [hengines] at hready
    exact hstay hready
  -- Only the unit whose loop turns may serve and not have served before.
  have hqueue : ∀ (w : UnitId) (f : UnitLoop → Queue Delivery),
      (τ.mapUnit w fun l => { l with queue := f l }).Resolved := fun w f =>
    h.mapUnit (f := fun l => { l with queue := f l }) (fun _ => rfl) (fun _ => rfl)
      fun _ _ hphase => .inl hphase
  cases hshift with
  | enqueue d _ _ => exact hkept (hqueue d.unit fun l => l.queue.push d) rfl rfl
  | refuse l d rest fate err _ _ _ => exact hkept (hqueue l.id fun _ => ⟨rest⟩) rfl rfl
  | submit l d rest s _ _ _ _ => exact hkept (hqueue l.id fun _ => ⟨rest⟩) rfl rfl
  | turn l phase hl hready =>
    refine h.mapUnit (f := fun l => { l with phase := phase }) (fun _ => rfl) (fun _ => rfl) ?_
    intro m hm hserving
    rcases Option.some.inj (hl.symm.trans hm) with rfl
    exact .inr (hready hserving)
  | learn l _ _ hphase =>
    intro u m hm hserving
    rcases Option.or_eq_some_iff.mp (List.find?_append.symm.trans hm) with hm | ⟨_, hm⟩
    · exact h u m hm hserving
    · -- The loop of a new unit is still looking for its engine.
      have hl : m = l := List.mem_singleton.mp (List.mem_of_find?_eq_some hm)
      rw [hl, hphase] at hserving
      cases hserving
  | _ => exact hkept h rfl rfl

/-! ## Deliveries that wait -/

theorem Shift.config_eq (h : Shift calls τ new τ') : τ'.config = τ.config := by
  cases h <;> rfl

/-- No engine has more than one delivery waiting beyond those that may wait before a further one is
refused. -/
def Bounded (τ : Traffic) : Prop :=
  ∀ e s, τ.engine? e = some s → s.waiting.size ≤ τ.config.maxWaiting + 1

theorem Bounded.putEngine (h : τ.Bounded) {s : EngineSite}
    (hs : s.waiting.size ≤ τ.config.maxWaiting + 1) : (τ.putEngine s).Bounded := by
  intro e s' hs'
  rw [engine?_putEngine] at hs'
  split at hs'
  · rcases Option.some.inj hs' with rfl
    exact hs
  · exact h e s' hs'

theorem Bounded.shift (hshift : Shift calls τ new τ') (h : τ.Bounded) : τ'.Bounded := by
  cases hshift with
  | offer s _ hwaiting _ =>
    refine h.putEngine ?_
    rw [Queue.size, hwaiting]
    exact Nat.zero_le _
  | submit l d rest s _ _ _ hroom =>
    -- The loop has looked before it handed the delivery over, and there is only this one more.
    refine (show (τ.mapUnit l.id fun l => { l with queue := ⟨rest⟩ }).Bounded from h).putEngine ?_
    rw [Queue.size, Queue.push, List.length_append]
    exact Nat.succ_le_succ hroom
  | start _ s d rest driver outcome isHeld hs hitems =>
    have hbefore := h _ _ hs
    refine h.putEngine (s := { s with waiting := ⟨rest⟩, driver := driver }) ?_
    rw [Queue.size, hitems, List.length_cons] at hbefore
    exact Nat.le_of_succ_le hbefore
  | drive _ s driver hs => exact h.putEngine (s := { s with driver := driver }) (h s.id s hs)
  | _ => exact h

/-! ## Errors of deliveries -/

/-- The kinds of the errors that a delivery may end with. -/
def refusals : List ErrorKind :=
  [.engineNotReady, .tooManyTasks, .execution]

/-- Every delivery that failed did so in one of three ways. -/
def Classified (τ : Traffic) : Prop :=
  ∀ e ∈ τ.finished, ∀ err, e.result = .error err → err.kind ∈ refusals

theorem Classified.append (h : τ.Classified) {e : Ending}
    (he : ∀ err, e.result = .error err → err.kind ∈ refusals)
    (hfinished : τ'.finished = τ.finished ++ [e]) : τ'.Classified := by
  intro e' he'
  rw [hfinished] at he'
  rcases List.mem_append.mp he' with he' | he'
  · exact h e' he'
  · rw [List.mem_singleton.mp he']
    exact he

theorem Classified.shift (hshift : Shift calls τ new τ') (h : τ.Classified) : τ'.Classified := by
  cases hshift with
  | refuse l d rest fate err _ _ hfate =>
    refine h.append (e := ⟨d, fate, .error err⟩) ?_ rfl
    intro err' herr'
    obtain rfl := Except.error.inj herr'
    rcases hfate with ⟨_, hkind⟩ | ⟨_, hkind⟩ <;> simp [refusals, hkind]
  | finish r _ _ =>
    refine h.append (e := ⟨r.delivery, .executed, r.outcome.result⟩) ?_ rfl
    intro err herr
    simp [refusals, Outcome.kind_of_result herr]
  | _ => exact h

end Traffic

open Traffic

namespace Cluster

variable {c c' : Cluster} {s : Setup} {events : List Event}

theorem config_of_run? [PatternLibrary] (hrun : (build s).run? events = some c) :
    c.config = s.config :=
  traffic_induction (P := fun τ => τ.config = s.config)
    (fun _ hshift h => hshift.config_eq.trans h) rfl hrun

theorem resolved_of_run? [PatternLibrary] (hrun : (build s).run? events = some c) :
    c.traffic.Resolved :=
  traffic_induction (P := Resolved) (fun horderly hshift h => h.shift horderly hshift)
    (fun _ _ hl => nomatch hl) hrun

theorem bounded_of_run? [PatternLibrary] (hrun : (build s).run? events = some c) :
    c.traffic.Bounded :=
  traffic_induction (P := Bounded) (fun _ hshift h => h.shift hshift) (fun _ _ hs => nomatch hs)
    hrun

theorem classified_of_run? [PatternLibrary] (hrun : (build s).run? events = some c) :
    c.traffic.Classified :=
  traffic_induction (P := Classified) (fun _ hshift h => h.shift hshift) (fun _ he => nomatch he)
    hrun

/-! ## Decisions -/

/-- The delivery is over without having come to a worker. -/
def Refused (c c' : Cluster) (d : Delivery) (fate : Fate) (err : Error) : Prop :=
  c'.finished = c.finished ++ [⟨d, fate, .error err⟩] ∧ c'.engines = c.engines

/-- The delivery is the last that waits for the workers of the engine. -/
def Submitted (c c' : Cluster) (e : EngineId) (d : Delivery) : Prop :=
  c'.finished = c.finished ∧ ∃ site, c.engine? e = some site ∧
    c'.engine? e = some { site with waiting := site.waiting.push d }

/-- What the loop `l` does with the delivery that it has taken, and when it does so. -/
structure Decided (c : Cluster) (l : UnitLoop) (d : Delivery) (c' : Cluster) : Prop where
  fate : c.Refused c' d .notReady (.engineNotReady l.engine) ∨
    (∃ n, c.Refused c' d .overloaded (.tooManyTasks l.engine l.id n c.config.maxWaiting)) ∨
    c.Submitted c' l.engine d
  notReady : c.Refused c' d .notReady (.engineNotReady l.engine) ↔
    l.phase ≠ .serving ∧ c.engine? l.engine = none
  overloaded : ∀ n,
    c.Refused c' d .overloaded (.tooManyTasks l.engine l.id n c.config.maxWaiting) ↔
      ∃ site, c.engine? l.engine = some site ∧ site.waiting.size = n ∧ c.config.maxWaiting < n
  submitted : c.Submitted c' l.engine d ↔
    ∃ site, c.engine? l.engine = some site ∧ site.waiting.size ≤ c.config.maxWaiting

theorem Refused.eq {d : Delivery} {fate fate' : Fate} {err err' : Error}
    (h : c.Refused c' d fate err) (h' : c.Refused c' d fate' err') : fate = fate' ∧ err = err' := by
  have hsame := List.append_cancel_left (h.1.symm.trans h'.1)
  injection hsame with hsame _
  injection hsame with _ hfate hresult
  exact ⟨hfate, Except.error.inj hresult⟩

theorem Refused.not_submitted {d d' : Delivery} {fate : Fate} {err : Error} {e : EngineId}
    (h : c.Refused c' d fate err) : ¬c.Submitted c' e d' := by
  rintro ⟨hfinished, _⟩
  have hsame := h.1.symm.trans hfinished
  simp at hsame

theorem refused_reject {c₁ : Cluster} (hfinished : c₁.finished = c.finished)
    (hengines : c₁.engines = c.engines) (d : Delivery) (fate : Fate) (err : Error) :
    c.Refused (c₁.reject d fate err) d fate err := by
  have htraffic := traffic_reject c₁ d fate err
  constructor
  · rw [← hfinished]
    exact congrArg Traffic.finished htraffic
  · rw [← hengines]
    exact congrArg Traffic.engines htraffic

/-- A loop refuses a delivery exactly if its engine is not ready, or has too much waiting. -/
theorem decided_of_dispatch (horderly : c.traffic.Orderly) (hresolved : c.traffic.Resolved)
    {l : UnitLoop} {d : Delivery} {rest : List Delivery} (hl : c.unit? l.id = some l)
    (h : c.Dispatch l d rest c') : c.Decided l d c' := by
  cases h with
  | notReady hengine =>
    have hrefused : c.Refused ((c.takeFirst l d rest).reject d .notReady (.engineNotReady l.engine))
        d .notReady (.engineNotReady l.engine) := refused_reject rfl rfl d _ _
    have hphase : l.phase ≠ .serving := by
      intro hserving
      have hready := hresolved l.id l hl hserving
      rw [show c.traffic.engine? l.engine = none from hengine] at hready
      cases hready
    have hnone : ∀ site, c.engine? l.engine ≠ some site := by
      intro site hsite
      rw [hengine] at hsite
      cases hsite
    exact {
      fate := .inl hrefused
      notReady := ⟨fun _ => ⟨hphase, hengine⟩, fun _ => hrefused⟩
      overloaded := fun n => ⟨fun hother => (nomatch (hrefused.eq hother).1),
        fun ⟨site, hsite, _⟩ => absurd hsite (hnone site)⟩
      submitted := ⟨fun hother => absurd hother hrefused.not_submitted,
        fun ⟨site, hsite, _⟩ => absurd hsite (hnone site)⟩ }
  | overloaded s hengine hfull =>
    have hrefused : c.Refused (((c.takeFirst l d rest).serve l).reject d .overloaded
        (.tooManyTasks l.engine l.id s.waiting.size c.config.maxWaiting)) d .overloaded
        (.tooManyTasks l.engine l.id s.waiting.size c.config.maxWaiting) :=
      refused_reject rfl rfl d _ _
    have hsite : ∀ site, c.engine? l.engine = some site → site = s := fun site hsite =>
      Option.some.inj (hsite.symm.trans hengine)
    refine {
      fate := .inr (.inl ⟨_, hrefused⟩)
      notReady := ⟨fun hother => (nomatch (hrefused.eq hother).1), fun hboth => ?_⟩
      overloaded := fun n => ⟨fun hother => ?_, ?_⟩
      submitted := ⟨fun hother => absurd hother hrefused.not_submitted, ?_⟩ }
    · rw [hengine] at hboth
      cases hboth.2
    · -- The number in the error is that of the deliveries that were waiting.
      have hcount := (hrefused.eq hother).2
      injection hcount with _ _ hcount
      exact ⟨s, hengine, hcount, hcount ▸ hfull⟩
    · rintro ⟨site, hother, rfl, _⟩
      rw [hsite site hother]
      exact hrefused
    · rintro ⟨site, hother, hroom⟩
      rw [hsite site hother] at hroom
      exact absurd hfull (Nat.not_lt.mpr hroom)
  | submitted s hengine hroom =>
    have hid : s.id = l.engine := horderly.id_of_engine? hengine
    have hsubmitted : c.Submitted (((c.takeFirst l d rest).serve l).submit s d) l.engine d := by
      refine ⟨rfl, s, hengine, ?_⟩
      rw [submit, engine?_putEngine, if_pos hid.symm]
    have hsite : ∀ site, c.engine? l.engine = some site → site = s := fun site hsite =>
      Option.some.inj (hsite.symm.trans hengine)
    refine {
      fate := .inr (.inr hsubmitted)
      notReady := ⟨fun hother => absurd hsubmitted hother.not_submitted, fun hboth => ?_⟩
      overloaded := fun n => ⟨fun hother => absurd hsubmitted hother.not_submitted, ?_⟩
      submitted := ⟨fun _ => ⟨s, hengine, hroom⟩, fun _ => hsubmitted⟩ }
    · rw [hengine] at hboth
      cases hboth.2
    · rintro ⟨site, hother, rfl, hfull⟩
      rw [hsite site hother] at hfull
      exact absurd hfull (Nat.not_lt.mpr hroom)

/-! ## What becomes of refused deliveries -/

/-- A delivery that a loop has refused has come to no worker. -/
theorem notMem_called_of_refused (h : c.Sound) {e : Ending} (he : e ∈ c.finished)
    (hfate : e.fate ≠ .executed) : e.delivery ∉ c.traffic.called := by
  have hnodup := nodup_deliveries h
  have hpast : e.delivery ∈ c.traffic.past := List.mem_map_of_mem he
  rw [deliveries] at hnodup
  intro hcalled
  rcases List.mem_append.mp hcalled with hunderway | hexecuted
  · exact List.disjoint_of_nodup_append hnodup (List.mem_append_right _ hunderway) hpast
  · obtain ⟨e', he', hdelivery⟩ := List.mem_map.mp hexecuted
    obtain ⟨hmem, hexecuted⟩ := List.mem_filter.mp he'
    -- One delivery has one ending only.
    have hsame : e' = e :=
      List.inj_on_of_nodup_map (List.Nodup.of_append_right hnodup) hmem he hdelivery
    rw [hsame] at hexecuted
    exact hfate (eq_of_beq hexecuted)

/-- A refused delivery counts for the follower of a sync task like any other that is over. -/
theorem reported_of_reject {d : Delivery} {x y : Task} {f : TaskId} {m : MemoryShape}
    (hx : c.task? d.task = some x) (hstorage : x.isStorage = true) (hsync : x.isSync = true)
    (hfollower : x.follower = some f) (hy : c.task? f = some y) (hm : y.memory? = some m)
    (fate : Fate) (err : Error) :
    (c.reject d fate err).task? f = some y.countParent ∧
      (c.reject d fate err).memory.queue.items =
        c.memory.queue.items ++ if m.ready + 1 = m.required then [f] else [] := by
  -- The follower is a memory task, but a storage task was refused.
  have hne : f ≠ d.task := by
    rintro rfl
    rcases Option.some.inj (hx.symm.trans hy) with rfl
    rcases x with ⟨_, _, _, _, _, _, _ | _ | _⟩
    · cases hm
    · cases hstorage
    · cases hm
  -- First the refused task gets its result, then its follower counts one more parent.
  let c₁ := c.modifyTask d.task fun t => t.setResult (.error err)
  have hx₁ : c₁.task? d.task = some (x.setResult (.error err)) := by
    rw [task?_modifyTask, if_pos rfl, hx, Option.map_some]
  have hy₁ : c₁.task? f = some y := by
    rw [task?_modifyTask, if_neg hne, hy]
  let c₂ := c₁.modifyTask f Task.countParent
  have hy₂ : c₂.task? f = some y.countParent := by
    rw [task?_modifyTask, if_pos rfl, hy₁, Option.map_some]
  have hreleased : y.countParent.isReleased = (m.ready + 1 == m.required) := by
    rcases y with ⟨_, _, _, _, _, _, _ | m' | _⟩ <;> cases hm
    rfl
  have hreport : c₁.report f = (c₂, m.ready + 1 == m.required) := by
    rw [report, show c₁.modifyTask f Task.countParent = c₂ from rfl, hy₂, Option.any_some,
      hreleased]
  have hrelease : c₁.release d.task = (c₂, if m.ready + 1 = m.required then some f else none) := by
    have hbind : (c₁.task? d.task).bind Task.follower = some f := by
      rw [hx₁, Option.bind_some]
      exact hfollower
    simp only [release, hbind, hreport, beq_iff_eq]
  have hsettle : c.settleTask d.task (.error err) =
      if m.ready + 1 = m.required then c₂.addMemory f else c₂ := by
    have hany : (c₁.task? d.task).any Task.isSync = true := by
      rw [hx₁, Option.any_some]
      exact hsync
    unfold settleTask
    simp only [show c.modifyTask d.task (fun t => t.setResult (.error err)) = c₁ from rfl, hany,
      if_true, hrelease]
    split <;> rename_i hpair <;> split at hpair <;> rename_i hcount <;> cases hpair <;>
      simp [hcount]
  change (c.settleTask d.task (.error err)).task? f = _ ∧
    (c.settleTask d.task (.error err)).memory.queue.items = _
  rw [hsettle]
  split
  · exact ⟨hy₂, rfl⟩
  · exact ⟨hy₂, (List.append_nil _).symm⟩

/-- The tasks that a loop does not take are as they were when it takes one. -/
theorem task?_takeFirst (c : Cluster) (l : UnitLoop) (d : Delivery) (rest : List Delivery)
    (t : TaskId) : (c.takeFirst l d rest).task? t =
      if t = d.task then (c.task? t).map fun x => x.stampUnit l.id l.isDummy else c.task? t :=
  task?_modifyTask _ d.task t _

theorem reported_of_dispatch (h : c.Coherent) {l : UnitLoop} {d : Delivery}
    {rest : List Delivery} (hl : c.unit? l.id = some l) (hitems : l.queue.items = d :: rest)
    (hdispatch : c.Dispatch l d rest c') (hrefused : c'.finished ≠ c.finished) {x y : Task}
    {f : TaskId} {m : MemoryShape} (hx : c.task? d.task = some x) (hsync : x.isSync = true)
    (hfollower : x.follower = some f) (hy : c.task? f = some y) (hm : y.memory? = some m) :
    c'.task? f = some y.countParent ∧
      c'.memory.queue.items =
        c.memory.queue.items ++ if m.ready + 1 = m.required then [f] else [] := by
  have hdelivered : d ∈ c.traffic.deliveries :=
    mem_deliveries_of_queue (mem_units_of_unit? hl) (hitems ▸ List.mem_cons_self)
  obtain ⟨x', hx', hstorage⟩ := h.storage d hdelivered
  obtain rfl := Option.some.inj (hx'.symm.trans hx)
  -- The stamp is all that is different about the task once the loop has taken it.
  have hx₁ : (c.takeFirst l d rest).task? d.task = some (x'.stampUnit l.id l.isDummy) := by
    rw [task?_takeFirst, if_pos rfl, hx, Option.map_some]
  have hsame : (x'.stampUnit l.id l.isDummy).isStorage = true ∧
      (x'.stampUnit l.id l.isDummy).isSync = true ∧
      (x'.stampUnit l.id l.isDummy).follower = some f := by
    rcases x' with ⟨_, _, _, _, _, _, _ | _ | _⟩
    · exact ⟨rfl, hsync, hfollower⟩
    · cases hstorage
    · cases hstorage
  have hy₁ : (c.takeFirst l d rest).task? f = some y := by
    rw [task?_takeFirst, if_neg, hy]
    rintro rfl
    obtain rfl := Option.some.inj (hx.symm.trans hy)
    rcases x' with ⟨_, _, _, _, _, _, _ | _ | _⟩
    · cases hm
    · cases hstorage
    · cases hm
  cases hdispatch with
  | notReady _ => exact reported_of_reject hx₁ hsame.1 hsame.2.1 hsame.2.2 hy₁ hm _ _
  | overloaded _ _ _ =>
    exact reported_of_reject (c := (c.takeFirst l d rest).serve l) hx₁ hsame.1 hsame.2.1 hsame.2.2
      hy₁ hm _ _
  | submitted _ _ _ => exact absurd rfl hrefused

/-! ## All histories -/

/-- What loops decide about deliveries, after any history:

* a delivery that a loop takes is refused because its engine is not ready, refused because too many
  deliveries wait for the workers of the engine, or handed to them; it is the first exactly if the
  loop has not found the engine and that is not ready, the second, with the number of those that
  wait, exactly if that is more than the limit, and the third exactly if it is not; and nothing
  comes to any queue;
* no driver is ever called for a delivery that has been refused, and no worker is ever busy with it,
  so it is never copied;
* the follower of a sync task learns of a refusal as it does of any other end;
* no engine ever has more deliveries waiting than the limit and one;
* the end of the only delivery of a task is the result of the task, and a storage task that has
  failed has done so in one of three ways. -/
theorem dispatch_decided [PatternLibrary] (s : Setup) {events : List Event} {c : Cluster}
    (hrun : (build s).run? events = some c) (hresults : ∀ e ∈ events, e.setsResult = false) :
    (∀ u c', c.step? (.dispatch u) = some c' →
      ∃ l d rest, c.unit? u = some l ∧ l.queue.items = d :: rest ∧ d.unit = u ∧
        c.Decided l d c' ∧ Drained c c') ∧
    (∀ e ∈ c.finished, e.fate ≠ .executed → ∀ later c', c.run? later = some c' →
      e.delivery ∉ (build s).calls (events ++ later) ∧ ∀ r ∈ c'.running, r.delivery ≠ e.delivery) ∧
    (∀ u c' l d rest x f y m, c.step? (.dispatch u) = some c' → c.unit? u = some l →
      l.queue.items = d :: rest → c'.finished ≠ c.finished → c.task? d.task = some x →
      x.isSync = true → x.follower = some f → c.task? f = some y → y.memory? = some m →
        c'.task? f = some y.countParent ∧ c'.memory.queue.items =
          c.memory.queue.items ++ if m.ready + 1 = m.required then [f] else []) ∧
    (∀ e site, c.engine? e = some site → site.waiting.size ≤ s.config.maxWaiting + 1) ∧
    (∀ e ∈ c.finished, (c.traffic.deliveries.countP fun d => d.task == e.delivery.task) = 1 →
      c.result? e.delivery.task = some e.result) ∧
    (∀ t x err, c.task? t = some x → x.isStorage = true → c.result? t = some (.error err) →
      err.kind ∈ [.engineNotReady, .tooManyTasks, .execution]) := by
  have hc := (coherent_build s).run? hrun
  have hstored := storageResults_of_run? hresults hrun
  refine ⟨?_, ?_, ?_, ?_, fun e he => result?_of_finished hc hstored he, ?_⟩
  · intro u c' hstep
    obtain ⟨l, d, rest, hl, _, _, hitems, hdispatch⟩ := dispatch_of_dispatch? hstep
    obtain rfl := id_of_unit? hl
    have hmem := mem_units_of_unit? hl
    have hunit := hc.sound.orderly.queuedAt l hmem d (hitems ▸ List.mem_cons_self)
    exact ⟨l, d, rest, hl, hitems, hunit,
      decided_of_dispatch hc.sound.orderly (resolved_of_run? hrun) hl hdispatch,
      drained_of_dispatch hc.sound hmem hitems hdispatch⟩
  · intro e he hfate later c' hlater
    have hlonger : (build s).run? (events ++ later) = some c' := by
      rw [run?_append, hrun, Option.bind_some]
      exact hlater
    have hsound := (hc.run? hlater).sound
    -- The refusal stays on record in every longer history, and there it is no call.
    have hcalled : e.delivery ∉ c'.traffic.called :=
      notMem_called_of_refused hsound ((finished_prefix_of_run? hc hlater).subset he) hfate
    refine ⟨fun hmem => hcalled ((calls_of_run? hlonger).1.mem_iff.mp hmem), ?_⟩
    rintro r hr hsame
    exact hcalled (List.mem_append_left _ (hsame ▸ List.mem_map_of_mem hr))
  · intro u c' l d rest x f y m hstep hl hitems hrefused hx hsync hfollower hy hm
    obtain ⟨l', d', rest', hl', _, _, hitems', hdispatch⟩ := dispatch_of_dispatch? hstep
    obtain rfl := Option.some.inj (hl.symm.trans hl')
    obtain ⟨rfl, rfl⟩ := List.cons.inj (hitems.symm.trans hitems')
    exact reported_of_dispatch hc (id_of_unit? hl ▸ hl) hitems hdispatch hrefused hx hsync hfollower
      hy hm
  · intro e site hsite
    have hbound := bounded_of_run? hrun e site hsite
    rwa [show c.traffic.config = s.config from config_of_run? hrun] at hbound
  · intro t x err hx hstorage hresult
    obtain ⟨e, he, _, hresult⟩ :=
      exists_ending_of_result? hstored hx hstorage hresult
    exact classified_of_run? hrun e he err hresult

/-- A node whose engine refuses whatever comes while a delivery waits. -/
def narrowSetup : Setup :=
  { sampleSetup with config := { sampleSetup.config with maxWaiting := 0 } }

/-- Of two deliveries the first waits for a worker. -/
def narrowEvents : List Event :=
  [.asked (.notifyUnit none (some (StorageUnit.newMaster "unit" 1))),
    .asked (.newStorage [] sampleFragment true false none),
    .asked (.newStorage [] sampleFragment true false none), .asked (.commitAll [0, 1]),
    .moved (.resolve "unit"), .moved (.dispatch "unit")]

theorem dispatch_decided_sample : ∃ c c', (build narrowSetup).run? narrowEvents = some c ∧
    c.step? (.dispatch "unit") = some c' ∧
    c.Refused c' ⟨1, 1, "unit"⟩ .overloaded (.tooManyTasks 1 "unit" 1 0) := by
  obtain ⟨c, hrun, c', hstep, l, hl, site, hsite, hid, hengine, hitems, hsize, hlimit⟩ :
      ∃ c ∈ (build narrowSetup).run? narrowEvents, ∃ c' ∈ c.step? (.dispatch "unit"),
        ∃ l ∈ c.unit? "unit", ∃ site ∈ c.engine? l.engine,
          l.id = "unit" ∧ l.engine = 1 ∧ l.queue.items = [⟨1, 1, "unit"⟩] ∧
          site.waiting.size = 1 ∧ c.config.maxWaiting = 0 := by
    decide
  obtain ⟨l', d, rest, hl', hitems', _, hdecided, _⟩ :=
    (dispatch_decided narrowSetup hrun (by decide)).1 "unit" c' hstep
  obtain rfl := Option.some.inj (hl.symm.trans hl')
  obtain ⟨rfl, _⟩ := List.cons.inj (hitems.symm.trans hitems')
  have hrefused := (hdecided.overloaded 1).mpr
    ⟨site, hsite, hsize, hlimit ▸ Nat.zero_lt_one⟩
  rw [hid, hengine, hlimit] at hrefused
  exact ⟨c, c', hrun, hstep, hrefused⟩

end Cluster
end SeriesExec
