import SeriesExec.Proofs.Calls
import SeriesExec.Proofs.Groups
import SeriesExec.Proofs.Supplies

/-!
# Readiness — one driver and one line of jobs for every engine

An engine is offered to the drivers at the start, by hand, or by the hook of the executor, which
hears of the engines of other nodes.  The same number may be offered often and with different
types; the first offer that a driver can be made for decides.  This file defines:

* `Setting.ears` — what decides who hears of a new engine;
* `Cluster.offeredBy` and `Cluster.offers` — the engines that an event, and a history, offers;
* `Cluster.Equipped` — what a cluster needs for its engines to stay what they are;
* `Traffic.WorkedOff` — what has become of the deliveries that wait for an engine;
* `Cluster.madeBy` — what the last factory for its type makes of an engine.

Main statements: an event makes ready what it offers, and nothing else (`Equipped.supplied_after?`);
deliveries leave the line of an engine at its front and for a call of its driver
(`Course.workedOff`); and who is ready after a history, since which offer, and for how long
(`engines_ready`).
-/

namespace SeriesExec

open Traffic

/-! ## Who hears of a new engine -/

theorem Catalog.hooks_of_addUnit {k k' : Catalog} {u : StorageUnit}
    {calls : List (Call StorageUnit)}
    (h : k.addUnit u = .ok (k', calls)) : k'.node = k.node ∧ k'.engineHooks = k.engineHooks := by
  unfold addUnit at h
  split at h
  · cases h
  · split at h
    · cases h
    · cases hattach : attach k.units u with
      | error f =>
        rw [hattach] at h
        cases h
      | ok units =>
        rw [hattach] at h
        rcases Prod.mk.inj (Except.ok.inj h) with ⟨rfl, _⟩
        exact ⟨rfl, rfl⟩

namespace Setting

/-- What decides who hears of a new engine. -/
structure Ears where
  node : Nat
  hooks : List HookId
  isDropped : Bool

def ears (σ : Setting) : Ears :=
  ⟨σ.catalog.node, σ.catalog.engineHooks, σ.isDropped⟩

theorem ears_learn (σ : Setting) (u : StorageUnit) : (σ.learn u).ears = σ.ears := by
  unfold learn
  split <;> rfl

theorem ears_hear (σ : Setting) (call : Call StorageUnit) : (σ.hear call).ears = σ.ears := by
  unfold hear
  repeat' split
  all_goals first | rfl | exact ears_learn σ _

theorem ears_ask_addEngine (σ : Setting) (e : StorageEngine) :
    (σ.ask (.addEngine e)).ears = σ.ears := by
  unfold ask
  dsimp only
  split
  · rename_i r hadd
    rw [ears, (Catalog.added_of_addEngine hadd).1]
    rfl
  · rfl

/-- Only who drops the executor changes who hears of a new engine. -/
theorem ears_after (σ : Setting) (e : Cluster.Event) :
    (σ.after e).ears = σ.ears ∨
      e = .asked .dropExecutor ∧ (σ.after e).ears = { σ.ears with isDropped := true } := by
  cases e with
  | moved s => exact .inl rfl
  | asked r =>
    cases r with
    | addEngine e => exact .inl (ears_ask_addEngine σ e)
    | addUnit u =>
      refine .inl ?_
      unfold after ask
      dsimp only
      split
      · rename_i r hadd
        rw [Cluster.foldl_keeps ears_hear]
        obtain ⟨hnode, hhooks⟩ := Catalog.hooks_of_addUnit hadd
        rw [ears, hnode, hhooks]
        rfl
      · rfl
    | notifyUnit before after => exact .inl (Cluster.foldl_keeps ears_hear _ σ)
    | dropExecutor => exact .inr ⟨rfl, rfl⟩
    | _ => exact .inl rfl

theorem hooks_after (σ : Setting) (e : Cluster.Event) :
    (σ.after e).catalog.engineHooks = σ.catalog.engineHooks := by
  rcases ears_after σ e with h | ⟨_, h⟩ <;> exact congrArg Ears.hooks h

theorem ears_foldl_after (σ : Setting) {events : List Cluster.Event}
    (hevents : .asked .dropExecutor ∉ events) : (events.foldl after σ).ears = σ.ears := by
  induction events generalizing σ with
  | nil => rfl
  | cons e rest ih =>
    obtain ⟨he, hrest⟩ := List.ne_and_not_mem_of_not_mem_cons hevents
    exact (ih (σ.after e) hrest).trans ((ears_after σ e).resolve_right fun h => he h.1.symm)

/-- A new executor comes second of those who hear of engines. -/
theorem ears_start (s : Cluster.Setup) :
    (start s).ears = ⟨s.node, [Cluster.observerHook, Cluster.executorHook], false⟩ := by
  have hseeded : (seeded s).ears = ⟨s.node, [Cluster.observerHook], false⟩ :=
    Cluster.foldl_keeps ears_ask_addEngine _ _
  obtain ⟨hnode, hhooks, hdropped⟩ := Ears.mk.inj hseeded
  unfold start
  dsimp only
  rw [Cluster.foldl_keeps ears_learn, ears]
  simp only [Catalog.addHook, hnode, hhooks, hdropped, List.singleton_append]

end Setting

namespace Cluster

variable {c c' c₁ : Cluster} {e : StorageEngine} {event : Event} {events : List Event}

/-! ## What an event offers -/

/-- The engine that the executor hears of as a new one and offers to the drivers: somebody has to
hold the executor, and another node has to have made the engine. -/
def takenUp (c : Cluster) : Option StorageEngine → Option StorageEngine → List StorageEngine
  | none, some e => if c.isListening && e.createdBy != c.catalog.node then [e] else []
  | _, _ => []

/-- The engines that an event offers to the drivers: one that is offered by hand, and one that the
executor hears of when it has been registered here or elsewhere. -/
def offeredBy (c : Cluster) : Event → List StorageEngine
  | .asked (.offerEngine e) => [e]
  | .asked (.addEngine e) => if (c.catalog.addEngine e).isOk then c.takenUp none (some e) else []
  | .asked (.notifyEngine before after) => c.takenUp before after
  | _ => []

/-- The observer notes the change, and the executor tries what it hears of. -/
theorem exists_announced (c : Cluster) (before after : Option StorageEngine) :
    ∃ ns,
      ([observerHook, executorHook].map fun hook => ⟨hook, before, after⟩).foldl engineCalled c =
        (c.takenUp before after).foldl tryEngine { c with notices := ns } := by
  refine ⟨c.notices ++ [.engine (before.map StorageEngine.id) (after.map StorageEngine.id)], ?_⟩
  rcases before with _ | b
  · rcases after with _ | a
    · rfl
    · unfold takenUp
      dsimp only
      split
      · rename_i hhears
        exact if_pos hhears
      · rename_i hdeaf
        exact if_neg hdeaf
  · rcases after with _ | a <;> rfl

/-- Whether a request can offer engines to the drivers. -/
def Request.mayOffer : Request → Bool
  | .addEngine _ | .notifyEngine _ _ | .offerEngine _ => true
  | _ => false

/-- What such a request offers is tried, after a registration and a note perhaps. -/
theorem exists_tried [PatternLibrary]
    (hhooks : c.catalog.engineHooks = [observerHook, executorHook]) {r : Request}
    (hr : r.mayOffer = true) : ∃ c₁, c₁.supplies = c.supplies ∧
      (c.handle r).1 = (c.offeredBy (.asked r)).foldl tryEngine c₁ := by
  cases r with
  | offerEngine e =>
    refine ⟨c, rfl, ?_⟩
    change (c.obey (.offerEngine e)).1 = c.tryEngine e
    unfold obey tryEngine
    dsimp only
    cases c.offerEngine e <;> rfl
  | notifyEngine before after =>
    obtain ⟨ns, hannounced⟩ := exists_announced c before after
    refine ⟨{ c with notices := ns }, rfl, ?_⟩
    change (c.catalog.announceEngine before after).foldl engineCalled c = _
    rw [Catalog.announceEngine, hhooks, hannounced]
    rfl
  | addEngine e =>
    have hhandle : (c.handle (.addEngine e)).1 = (c.orFault (c.addEngine e)).1 := rfl
    rw [hhandle, offeredBy, addEngine]
    cases hadd : c.catalog.addEngine e with
    | error f => exact ⟨c, rfl, rfl⟩
    | ok r =>
      obtain ⟨hcatalog, hcalls⟩ := Catalog.added_of_addEngine hadd
      obtain ⟨ns, hannounced⟩ := exists_announced { c with catalog := r.1 } none (some e)
      refine ⟨{ c with catalog := r.1, notices := ns }, rfl, ?_⟩
      change r.2.foldl engineCalled { c with catalog := r.1 } = _
      rw [hcalls, Catalog.announceEngine, hhooks, hannounced, hcatalog]
      rfl
  | _ => cases hr

/-- How an engine is tried goes by the supplies alone. -/
theorem supplies_tryEngine_congr (h : c₁.supplies = c.supplies) (e : StorageEngine) :
    (c₁.tryEngine e).supplies = (c.tryEngine e).supplies := by
  obtain ⟨hconfig, hrest⟩ := Prod.mk.inj h
  obtain ⟨hengines, hfactories⟩ := Prod.mk.inj hrest
  unfold tryEngine offerEngine
  rw [hengines, hfactories, hconfig]
  by_cases hready : KeyedList.contains e.id c.engines = true
  · simp only [hready, if_true]
    exact h
  · simp only [hready]
    cases KeyedList.find? e.type c.factories with
    | none => exact h
    | some f =>
      cases hbuilt : f.build e with
      | error fault =>
        simp only [hbuilt]
        exact h
      | ok d =>
        simp only [hbuilt]
        exact Prod.ext hconfig (Prod.ext (congrArg (KeyedList.insert e.id _) hengines) hfactories)

/-- What an event offers by whichever way is tried as if it were offered by hand. -/
theorem engines_of_offeredBy [PatternLibrary]
    (hhooks : c.catalog.engineHooks = [observerHook, executorHook])
    (hoffers : c.offeredBy event = [e]) (hafter : c.after? event = some c') :
    c'.engines = (c.tryEngine e).engines := by
  cases event with
  | moved s => cases hoffers
  | asked r =>
    have hr : r.mayOffer = true := by
      cases r <;> first | rfl | cases hoffers
    obtain ⟨c₁, hsupplies, htried⟩ := exists_tried hhooks hr
    obtain rfl := Option.some.inj hafter
    rw [htried, hoffers]
    exact congrArg (fun p => p.2.1) (supplies_tryEngine_congr hsupplies e)

/-! ## Histories -/

/-- The cluster is coherent, its drivers are where they come from, and its executor hears of new
engines after the observer. -/
structure Equipped (c : Cluster) : Prop where
  coherent : c.Coherent
  setting : c.setting.Coherent
  manned : c.Manned
  hooks : c.catalog.engineHooks = [observerHook, executorHook]

theorem supplies_learnUnit (c : Cluster) (u : StorageUnit) :
    (c.learnUnit u).supplies = c.supplies := by
  unfold learnUnit
  split <;> rfl

theorem supplies_unitCalled (c : Cluster) (call : Call StorageUnit) :
    (c.unitCalled call).supplies = c.supplies := by
  unfold unitCalled
  repeat' split
  all_goals first | rfl | exact supplies_learnUnit c _

section

variable [PatternLibrary]

theorem Equipped.supplied_handle (h : c.Equipped) (r : Request) :
    Supplied c (c.offeredBy (.asked r)) (c.handle r).1 := by
  by_cases hoffers : r.mayOffer = true
  · obtain ⟨c₁, hsupplies, htried⟩ := exists_tried h.hooks hoffers
    rw [htried]
    exact (Supplied.of_supplies hsupplies).trans (supplied_foldl_tryEngine _ c₁)
  have hnone : c.offeredBy (.asked r) = [] := by
    cases r <;> first | rfl | exact absurd rfl hoffers
  rw [hnone, handle]
  split
  · by_cases hwork : r.isWork = true
    · exact .of_supplies (obey_keeps (fun _ _ => rfl) (fun _ _ => rfl) (fun _ _ => rfl)
        (fun _ _ => rfl) supplies_enqueue c hwork)
    · cases r with
      | addUnit u =>
        refine .of_supplies ?_
        unfold obey addUnit
        dsimp only
        cases c.catalog.addUnit u with
        | error f => rfl
        | ok r => exact foldl_keeps supplies_unitCalled r.2 { c with catalog := r.1 }
      | notifyUnit before after => exact .of_supplies (foldl_keeps supplies_unitCalled _ c)
      | callDriver e t =>
        unfold obey
        dsimp only
        split
        · rename_i s task hs _
          have hid : s.id = e := h.coherent.sound.orderly.id_of_engine? hs
          have hcall := supplied_callDriver h.manned (hid ▸ hs : c.engine? s.id = some s) t task
          split <;> rename_i hpair <;> rw [hpair] at hcall <;> exact hcall
        · exact .of_supplies rfl
      | openGate type n => exact supplied_openGate c type n
      | shutdown => exact .of_supplies rfl
      | dropExecutor => exact .of_supplies rfl
      | _ => first | exact absurd rfl hwork | exact absurd rfl hoffers
  · exact .of_supplies rfl

/-- An event makes ready what it offers, and nothing else. -/
theorem Equipped.supplied_after? (h : c.Equipped) (hafter : c.after? event = some c') :
    Supplied c (c.offeredBy event) c' := by
  cases event with
  | asked r =>
    obtain rfl := Option.some.inj hafter
    exact h.supplied_handle r
  | moved s => exact supplied_step? h.manned h.coherent.sound.orderly hafter

theorem Equipped.after? (h : c.Equipped) (hafter : c.after? event = some c') : c'.Equipped where
  coherent := h.coherent.after? hafter
  setting := setting_after? h.setting hafter ▸ h.setting.after event
  manned := h.manned.supplied (h.supplied_after? hafter)
  hooks := by
    have hcatalog : c'.catalog = (c.setting.after event).catalog :=
      congrArg Setting.catalog (setting_after? h.setting hafter)
    rw [hcatalog, c.setting.hooks_after event]
    exact h.hooks

theorem Equipped.run? (h : c.Equipped) (hrun : c.run? events = some c') : c'.Equipped :=
  run?_induction (P := Equipped) (A := fun _ => True) (fun _ h hafter => h.after? hafter)
    (fun _ _ => trivial) h hrun

theorem Equipped.supplied_run? (h : c.Equipped) (hrun : c.run? events = some c') :
    Supplied c (c.trace offeredBy events) c' := by
  induction events generalizing c with
  | nil =>
    rcases Option.some.inj hrun with rfl
    exact .of_supplies rfl
  | cons event rest ih =>
    rcases Option.bind_eq_some_iff.mp hrun with ⟨c₁, hafter, hrest⟩
    rw [trace_cons _ hafter]
    exact (h.supplied_after? hafter).trans (ih (h.after? hafter) hrest)

end

/-! ## The start -/

/-- While there is no executor, registering an engine offers nothing. -/
theorem supplies_seedEngine (hhooks : c.catalog.engineHooks = [observerHook]) (e : StorageEngine) :
    (c.seedEngine e).catalog.engineHooks = [observerHook] ∧
      (c.seedEngine e).supplies = c.supplies := by
  unfold seedEngine addEngine
  cases hadd : c.catalog.addEngine e with
  | error f => exact ⟨hhooks, rfl⟩
  | ok r =>
    obtain ⟨hcatalog, hcalls⟩ := Catalog.added_of_addEngine hadd
    simp only [Except.map]
    rw [hcalls, Catalog.announceEngine, hhooks, hcatalog]
    exact ⟨hhooks, rfl⟩

theorem supplies_foldl_seedEngine (hhooks : c.catalog.engineHooks = [observerHook])
    (es : List StorageEngine) : (es.foldl seedEngine c).supplies = c.supplies := by
  induction es generalizing c with
  | nil => rfl
  | cons e rest ih =>
    obtain ⟨hstill, hone⟩ := supplies_seedEngine hhooks e
    exact (ih hstill).trans hone

theorem supplied_launch [PatternLibrary] (s : Setup) (factories : List (String × Factory))
    (given : List StorageEngine) :
    Supplied (bare s factories) given (launch s factories given) := by
  have hseeded : Supplied (bare s factories) []
      ((s.engines.map Prod.fst).foldl seedEngine (bare s factories)) :=
    .of_supplies (supplies_foldl_seedEngine (c := bare s factories) rfl _)
  have hready := hseeded.trans (supplied_foldl_tryEngine given _)
  unfold launch
  dsimp only
  generalize given.foldl tryEngine ((s.engines.map Prod.fst).foldl seedEngine
    (bare s factories)) = ready at hready ⊢
  have hlearnt := foldl_keeps supplies_learnUnit
    ((ready.catalog.addHook executorHook).engineList.filterMap StorageEngine.dummyUnit?)
    { ready with catalog := ready.catalog.addHook executorHook }
  have hall := hready.trans (.of_supplies hlearnt)
  rwa [List.append_nil, List.nil_append] at hall

theorem engine?_bare (s : Setup) (factories : List (String × Factory)) (id : EngineId) :
    (bare s factories).engine? id = none := rfl

variable [PatternLibrary]

theorem equipped_launch (s : Setup) (factories : List (String × Factory))
    (given : List StorageEngine) : (launch s factories given).Equipped where
  coherent := coherent_launch s factories given
  setting := setting_launch s factories given ▸ Setting.coherent_start s
  manned := by
    have hbare : (bare s factories).Manned := fun _ _ _ hs => nomatch hs
    exact hbare.supplied (supplied_launch s factories given)
  hooks := by
    have hears := Setting.ears_start s
    rw [← setting_launch s factories given] at hears
    exact congrArg Setting.Ears.hooks hears

/-- Unless somebody drops the executor, it takes up every engine of another node. -/
theorem takenUp_of_run? {s : Setup} {factories : List (String × Factory)}
    {given : List StorageEngine} (hevents : .asked .dropExecutor ∉ events)
    (hrun : (launch s factories given).run? events = some c) (e : StorageEngine) :
    c.takenUp none (some e) = if e.createdBy = s.node then [] else [e] := by
  have hears : c.setting.ears = ⟨s.node, [observerHook, executorHook], false⟩ := by
    rw [setting_run? (equipped_launch s factories given).setting hrun,
      Setting.ears_foldl_after _ hevents, setting_launch, Setting.ears_start]
  obtain ⟨hnode, _, hdropped⟩ := Setting.Ears.mk.inj hears
  change c.catalog.node = s.node at hnode
  change c.isDropped = false at hdropped
  rw [takenUp, isListening, hdropped, hnode]
  by_cases hown : e.createdBy = s.node <;> simp [hown]

end Cluster

/-! ## The line of an engine -/

namespace Traffic

variable {τ τ' : Traffic} {new : List Delivery} {calls : Prop} {id : EngineId} {s : EngineSite}

/-- What has become of the deliveries that wait for an engine: others have come behind them, and
those that have left it in front are in `taken`, for which the driver of the engine was called. -/
def WorkedOff (τ' : Traffic) (s s' : EngineSite) : Prop :=
  ∃ taken more, s.waiting.items ++ more = taken ++ s'.waiting.items ∧
    ∀ d ∈ taken, ∃ r, (d, r) ∈ τ'.servedAt s.id

theorem Shift.servedAt_subset (h : Shift calls τ new τ') (id : EngineId) :
    τ.servedAt id ⊆ τ'.servedAt id := by
  intro p hp
  obtain ⟨hserved, hat⟩ := List.mem_filter.mp hp
  have hengine : τ'.engineOf? p.1.unit = some id := h.engineOf?_some (eq_of_beq hat)
  exact List.mem_filter.mpr ⟨h.served_subset hserved, beq_iff_eq.mpr hengine⟩

theorem workedOff_refl (τ : Traffic) (s : EngineSite) : τ.WorkedOff s s :=
  ⟨[], [], List.append_nil _, fun _ hd => nomatch hd⟩

/-- A delivery leaves the line of an engine at its front, when a worker calls the driver for it. -/
theorem Shift.workedOff (horderly : τ.Orderly) (h : Shift calls τ new τ')
    (hs : τ.engine? id = some s) : ∃ s', τ'.engine? id = some s' ∧ τ'.WorkedOff s s' := by
  -- An engine that is put in anew is the one that is looked at, or another.
  have hput : ∀ {s₀ : EngineSite} (s' : EngineSite), τ.engine? s'.id = some s₀ →
      τ'.engine? id = (τ.putEngine s').engine? id → τ'.WorkedOff s₀ s' →
      ∃ s', τ'.engine? id = some s' ∧ τ'.WorkedOff s s' := by
    intro s₀ s' hs₀ hengine hworked
    rw [hengine, engine?_putEngine]
    split
    · rename_i hid
      rw [hid, hs₀] at hs
      obtain rfl := Option.some.inj hs
      exact ⟨s', rfl, hworked⟩
    · exact ⟨s, hs, workedOff_refl τ' s⟩
  cases h with
  | offer s₀ hnew _ _ =>
    have hne : id ≠ s₀.id := by
      rintro rfl
      cases hnew.symm.trans hs
    exact ⟨s, (engine?_putEngine τ s₀ id).trans ((if_neg hne).trans hs), workedOff_refl _ s⟩
  | submit l d rest s₀ hl hitems hs₀ hroom =>
    have hid : s₀.id = l.engine := horderly.id_of_engine? hs₀
    exact hput { s₀ with waiting := s₀.waiting.push d } (hid ▸ hs₀ : τ.engine? s₀.id = some s₀) rfl
      ⟨[], [d], rfl, fun _ hd => nomatch hd⟩
  | start hcalls s₀ d rest driver outcome isHeld hs₀ hitems =>
    refine hput { s₀ with waiting := ⟨rest⟩, driver := driver } hs₀ rfl
      ⟨[d], [], (List.append_nil _).trans hitems, fun d' hd' => ⟨outcome.result, ?_⟩⟩
    obtain rfl := List.mem_singleton.mp hd'
    have hserved : (d', outcome.result) ∈ (τ.taken s₀ d' rest driver outcome isHeld).served := by
      rw [served_taken]
      exact List.mem_append_right _ (List.mem_singleton_self _)
    have hat : τ.engineOf? d'.unit = some s₀.id :=
      horderly.pooledAt (s₀.id, s₀) (KeyedList.mem_of_find? hs₀) d' (hitems ▸ List.mem_cons_self)
    exact List.mem_filter.mpr ⟨hserved, beq_iff_eq.mpr hat⟩
  | drive hcalls s₀ driver hs₀ =>
    exact hput { s₀ with driver := driver } hs₀ rfl (workedOff_refl _ s₀)
  | _ => exact ⟨s, hs, workedOff_refl _ s⟩

theorem WorkedOff.trans {s' s'' : EngineSite} {τ'' : Traffic} (hid : s'.id = s.id)
    (h : τ'.WorkedOff s s') (h' : τ''.WorkedOff s' s'')
    (hkept : τ'.servedAt s.id ⊆ τ''.servedAt s.id) : τ''.WorkedOff s s'' := by
  obtain ⟨taken, more, hitems, htaken⟩ := h
  obtain ⟨taken', more', hitems', htaken'⟩ := h'
  refine ⟨taken ++ taken', more ++ more', ?_, fun d hd => ?_⟩
  · rw [← List.append_assoc, hitems, List.append_assoc, hitems', List.append_assoc]
  · rcases List.mem_append.mp hd with hd | hd
    · obtain ⟨r, hr⟩ := htaken d hd
      exact ⟨r, hkept hr⟩
    · exact hid ▸ htaken' d hd

theorem Course.workedOff (h : Course calls τ new τ') (horderly : τ.Orderly)
    (hs : τ.engine? id = some s) :
    τ.servedAt id ⊆ τ'.servedAt id ∧ ∃ s', τ'.engine? id = some s' ∧ τ'.WorkedOff s s' := by
  have hid : s.id = id := horderly.id_of_engine? hs
  refine h.keeps (P := fun τ' => τ.servedAt id ⊆ τ'.servedAt id ∧
    ∃ s', τ'.engine? id = some s' ∧ τ'.WorkedOff s s') ?_
    ⟨fun _ hp => hp, s, hs, workedOff_refl τ s⟩
  rintro τ₁ τ₂ new horderly₁ hshift ⟨hserved, s₁, hs₁, hworked⟩
  obtain ⟨s₂, hs₂, hnext⟩ := hshift.workedOff horderly₁ hs₁
  have hid₁ : s₁.id = s.id := (horderly₁.id_of_engine? hs₁).trans hid.symm
  exact ⟨fun _ hp => hshift.servedAt_subset id (hserved hp), s₂, hs₂,
    hworked.trans hid₁ hnext (hshift.servedAt_subset s.id)⟩

end Traffic

/-! ## All of it -/

namespace Cluster

variable {c c' : Cluster} {e : StorageEngine} {events : List Event} {s : Setup}
  {factories : List (String × Factory)} {given : List StorageEngine}

/-- The driver that the last of the factories for its type makes for an engine, or why there is
none. -/
def madeBy (factories : List (String × Factory)) (e : StorageEngine) : Except Fault Driver :=
  match factories.reverse.find? fun p => decide (p.1 = e.type) with
  | none => .error (.noDriver e.id e.type)
  | some p => p.2.build e

theorem driverFor_bare (s : Setup) (factories : List (String × Factory)) (e : StorageEngine) :
    (bare s factories).driverFor e = madeBy factories e := by
  have hfactory : (bare s factories).factory? e.type =
      (factories.reverse.find? fun p => decide (p.1 = e.type)).map Prod.snd :=
    KeyedList.find?_ofList e.type factories
  rw [driverFor, hfactory, madeBy]
  cases factories.reverse.find? fun p => decide (p.1 = e.type) <;> rfl

section

variable [PatternLibrary]

/-- All engines that are offered to the drivers: those at the start, and those that the events of a
history offer. -/
def offers (s : Setup) (factories : List (String × Factory)) (given : List StorageEngine)
    (events : List Event) : List StorageEngine :=
  given ++ (launch s factories given).trace offeredBy events

/-- What is answered to an offer by hand. -/
def Reply.toOffer : Except Fault Bool → Reply
  | .ok isNew => .flag isNew
  | .error f => .refused (.fault f)

theorem handle_offerEngine {answer : Except Fault Bool}
    (h : c.offerEngine e = answer.map (Prod.mk c')) (hfailed : ∀ f, answer = .error f → c' = c) :
    c.handle (.offerEngine e) = (c', Reply.toOffer answer) := by
  change c.obey (.offerEngine e) = _
  unfold obey
  dsimp only
  rw [h]
  cases answer with
  | ok isNew => rfl
  | error f =>
    rw [hfailed f rfl]
    rfl

/-- What time has done since the start, when no engine was ready. -/
theorem supplied_offers (hrun : (launch s factories given).run? events = some c) :
    Supplied (bare s factories) (offers s factories given events) c :=
  (supplied_launch s factories given).trans ((equipped_launch s factories given).supplied_run? hrun)

/-- An engine that is ready has the driver that was made for its first offer that succeeded. -/
theorem exists_first_offer (hrun : (launch s factories given).run? events = some c) {id : EngineId}
    {site : EngineSite} (hs : c.engine? id = some site) :
    ∃ e d, (offers s factories given events).find?
        (fun e => e.id == id && (madeBy factories e).isOk) = some e ∧
      madeBy factories e = .ok d ∧
      (EngineSite.mk id d (max s.config.engineWorkers 1) Queue.empty).Continues site := by
  have hrel := (supplied_offers hrun).made (engine?_bare s factories id)
  rw [hs] at hrel
  cases hfirst : (bare s factories).firstFor id (offers s factories given events) with
  | none =>
    rw [hfirst] at hrel
    cases hrel
  | some e =>
    rw [hfirst] at hrel
    cases hrel with
    | some hmade =>
      obtain ⟨d, hd, hcontinues⟩ := hmade
      obtain ⟨rfl, _⟩ := id_of_firstFor hfirst
      simp only [firstFor, driverFor_bare] at hfirst hd
      exact ⟨e, d, hfirst, hd, hcontinues⟩

theorem isSome_engine?_iff (hrun : (launch s factories given).run? events = some c)
    {id : EngineId} :
    (c.engine? id).isSome = true ↔
      ∃ e ∈ offers s factories given events, e.id = id ∧ (madeBy factories e).isOk = true := by
  have hrel := (supplied_offers hrun).made (engine?_bare s factories id)
  have hsame : (c.engine? id).isSome =
      ((bare s factories).firstFor id (offers s factories given events)).isSome := by
    generalize (bare s factories).firstFor id (offers s factories given events) = o at hrel ⊢
    generalize c.engine? id = o' at hrel ⊢
    cases hrel <;> rfl
  rw [hsame, isSome_firstFor_iff]
  simp only [driverFor_bare]

/-- An engine that is ready stays so whatever happens: every offer of its number is answered by
`false` and changes nothing, the engine keeps its workers and its driver, and no delivery is lost
that waits for it or that the driver has been called for. -/
theorem ready_for_good (h : c.Equipped) {id : EngineId} {site : EngineSite}
    (hs : c.engine? id = some site) (hrun : c.run? events = some c') :
    (∀ e : StorageEngine, e.id = id → c'.handle (.offerEngine e) = (c', .flag false)) ∧
      ∃ site', c'.engine? id = some site' ∧ site.Continues site' ∧
        c'.traffic.WorkedOff site site' ∧ c.traffic.servedAt id ⊆ c'.traffic.servedAt id := by
  obtain ⟨site', hs', hcontinues⟩ := (h.supplied_run? hrun).kept hs
  obtain ⟨new, hcourse⟩ := course_of_run? h.coherent hrun
  obtain ⟨hserved, site'', hs'', hworked⟩ := hcourse.workedOff h.coherent.sound.orderly hs
  cases hs'.symm.trans hs''
  refine ⟨?_, site', hs', hcontinues, hworked, hserved⟩
  rintro e rfl
  have hoffer : c'.offerEngine e = (Except.ok false).map (Prod.mk c') :=
    offerEngine_of_ready (Option.isSome_of_eq_some hs')
  exact handle_offerEngine hoffer fun _ hf => nomatch hf

/-- One driver and one line of jobs for every engine that is ready.  After any history an engine is
ready exactly if it has been offered with a type for which the last factory makes a driver, and it
has the driver of the first such offer.  An offer at this moment, by hand or by a hook, fails and
changes no engine, or succeeds as if none had been made before, or is of an engine that is ready;
then and ever after it is answered by `false`, the engine keeps its driver, and the deliveries that
wait for it are executed in their order.  Unless somebody drops the executor, it hears of every
engine of another node. -/
theorem engines_ready (s : Setup) (factories : List (String × Factory))
    (given : List StorageEngine) {events : List Event} {c : Cluster}
    (hrun : (launch s factories given).run? events = some c) :
    (∀ id, (c.engine? id).isSome = true ↔
        ∃ e ∈ offers s factories given events, e.id = id ∧ (madeBy factories e).isOk = true) ∧
      (∀ id site, c.engine? id = some site →
        ∃ e d, (offers s factories given events).find?
            (fun e => e.id == id && (madeBy factories e).isOk) = some e ∧
          madeBy factories e = .ok d ∧
          (EngineSite.mk id d (max s.config.engineWorkers 1) Queue.empty).Continues site) ∧
      (∀ e, c.driverFor e = madeBy factories e ∧
        ∃ answer c', c.Offered e answer c' ∧
          c.handle (.offerEngine e) = (c', Reply.toOffer answer) ∧
          ∀ event c'', c.offeredBy event = [e] → c.after? event = some c'' →
            c''.engines = c'.engines) ∧
      (∀ id site, c.engine? id = some site → ∀ later c', c.run? later = some c' →
        (∀ e : StorageEngine, e.id = id → c'.handle (.offerEngine e) = (c', .flag false)) ∧
          ∃ site', c'.engine? id = some site' ∧ site.Continues site' ∧
            c'.traffic.WorkedOff site site' ∧ c.traffic.servedAt id ⊆ c'.traffic.servedAt id) ∧
      (.asked .dropExecutor ∉ events → ∀ e : StorageEngine,
        c.takenUp none (some e) = if e.createdBy = s.node then [] else [e]) := by
  have hc : c.Equipped := (equipped_launch s factories given).run? hrun
  refine ⟨fun id => isSome_engine?_iff hrun, fun id site hs => exists_first_offer hrun hs,
    fun e => ⟨?_, ?_⟩, fun id site hs later c' hlater => ready_for_good hc hs hlater,
    fun hevents e => takenUp_of_run? hevents hrun e⟩
  · rw [(supplied_offers hrun).driverFor_eq, driverFor_bare]
  · obtain ⟨answer, c', hoffered, hoffer⟩ := exists_offered c e
    -- The offer at this moment is made by hand; one by a hook has the same effect on the engines.
    have hfailed : ∀ f, answer = .error f → c' = c := by
      rintro f rfl
      cases hoffered
      rfl
    have hhandle := handle_offerEngine hoffer hfailed
    refine ⟨answer, c', hoffered, hhandle, fun event c'' hoffers hafter => ?_⟩
    rw [engines_of_offeredBy hc.hooks hoffers hafter]
    have hself : c.offeredBy (.asked (.offerEngine e)) = [e] := rfl
    have htried : (c.handle (.offerEngine e)).1.engines = (c.tryEngine e).engines :=
      engines_of_offeredBy hc.hooks hself rfl
    rw [← htried, hhandle]

end

/-- Nothing is registered at the start. -/
def emptySetup : Setup :=
  { sampleSetup with engines := [] }

/-- Of the two factories for outside drivers the second counts. -/
def shadowedFactories : List (String × Factory) :=
  [(Factory.storeType, .store), ("outside", .broken),
    ("outside", .scripted (Script.new [] [] none))]

/-- There is no factory for the first engine with the type that it has at the start. -/
def givenEngines : List StorageEngine :=
  [StorageEngine.plain 1 "absent", StorageEngine.plain 2 "outside"]

/-- The first engine as another node registers it. -/
def distantEngine : StorageEngine :=
  { StorageEngine.plain 1 Factory.storeType with createdBy := 7 }

/-- The first engine is registered by another node, and the third one by the node itself; then one
is offered that there is no factory for, and the first one with yet another type. -/
def registeringEvents : List Event :=
  [.asked (.addEngine distantEngine), .asked (.addEngine (StorageEngine.plain 3 Factory.storeType)),
    .asked (.offerEngine (StorageEngine.plain 4 "absent")),
    .asked (.offerEngine (StorageEngine.plain 1 "outside"))]

theorem engines_ready_sample : ∃ c site,
    (launch emptySetup shadowedFactories givenEngines).run? registeringEvents = some c ∧
      (∀ id, (c.engine? id).isSome = true ↔ id = 2 ∨ id = 1) ∧ c.engine? 1 = some site ∧
      (Driver.store Store.empty).Continues site.driver ∧
      c.handle (.offerEngine (StorageEngine.plain 1 "outside")) = (c, .flag false) := by
  obtain ⟨c, hrun, hready⟩ : ∃ c ∈ (launch emptySetup shadowedFactories givenEngines).run?
      registeringEvents, (c.engine? 1).isSome = true := by
    decide
  obtain ⟨site, hsite⟩ := Option.isSome_iff_exists.mp hready
  obtain ⟨hwho, hfirst, _, hgood, _⟩ :=
    engines_ready emptySetup shadowedFactories givenEngines hrun
  have hoffers : (offers emptySetup shadowedFactories givenEngines registeringEvents).map
      (fun e => (e.id, (madeBy shadowedFactories e).isOk)) =
      [(1, false), (2, true), (1, true), (4, false), (1, true)] := by
    decide
  refine ⟨c, site, hrun, fun id => ?_, hsite, ?_, (hgood 1 site hsite [] c rfl).1 _ rfl⟩
  · have hmem : (c.engine? id).isSome = true ↔
        (id, true) ∈ (offers emptySetup shadowedFactories givenEngines registeringEvents).map
          fun e => (e.id, (madeBy shadowedFactories e).isOk) := by
      rw [hwho, List.mem_map]
      simp only [Prod.mk.injEq]
    rw [hmem, hoffers]
    simp
  · obtain ⟨e, d, hfound, hmade, hcontinues⟩ := hfirst 1 site hsite
    have hexpected : (offers emptySetup shadowedFactories givenEngines registeringEvents).find?
        (fun e => e.id == 1 && (madeBy shadowedFactories e).isOk) = some distantEngine := by
      decide
    obtain rfl := Option.some.inj (hexpected.symm.trans hfound)
    obtain rfl : Driver.store Store.empty = d := Except.ok.inj hmade
    exact hcontinues.driver

end Cluster
end SeriesExec
