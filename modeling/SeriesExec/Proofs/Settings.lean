import SeriesExec.Proofs.Steps

/-!
# Settings — what only a few requests change

What is registered, which units are known and on which engines they are, and whether the loops are
on, changes with a handful of requests and with nothing else, and these requests go by nothing else
either.  So the setting of a cluster is a small machine of its own.  This file defines:

* `UnitLoop.plate` — what a unit is known by, which its loop never changes;
* `Setting` — the part of a cluster that tasks and deliveries pass by;
* `Setting.start`, `Setting.learn`, `Setting.hear` and `Setting.after` — the machine.

Main statements: no move touches the setting (`setting_step?`), and every history takes it where the
machine does (`setting_after?`, `setting_run?`).
-/

namespace SeriesExec

/-- What a unit is known by: its name, its engine, and whether it is a dummy unit. -/
def UnitLoop.plate (l : UnitLoop) : UnitId × EngineId × Bool :=
  (l.id, l.engine, l.isDummy)

def StorageUnit.plate (u : StorageUnit) : UnitId × EngineId × Bool :=
  (u.id, u.engine, u.isDummy)

/-- What tasks and deliveries pass by. -/
structure Setting where
  config : ExecutorConfig
  catalog : Catalog
  router : Router
  monitors : List Monitor
  /-- The known units, in the order in which they became known. -/
  known : List (UnitId × EngineId × Bool)
  isClosed : Bool
  isDropped : Bool

def Cluster.setting (c : Cluster) : Setting :=
  ⟨c.config, c.catalog, c.router, c.monitors, c.units.map UnitLoop.plate, c.isClosed, c.isDropped⟩

namespace Setting

/-- Whoever has dropped the executor has turned the loops off by that. -/
def Coherent (σ : Setting) : Prop :=
  σ.isDropped = true → σ.isClosed = true

/-- A unit becomes known, unless it is known or the loops are off. -/
def learn (σ : Setting) (u : StorageUnit) : Setting :=
  if σ.isClosed || σ.known.any fun p => p.1 == u.id then σ
  else { σ with known := σ.known ++ [u.plate] }

/-- A hook is called about a unit. -/
def hear (σ : Setting) (call : Call StorageUnit) : Setting :=
  if call.hook = Cluster.observerHook then σ
  else
    match call.before, call.after with
    | none, some u => σ.learn u
    | _, _ => σ

/-- The setting after a request. -/
def ask (σ : Setting) : Cluster.Request → Setting
  | .addEngine e =>
    match σ.catalog.addEngine e with
    | .ok r => { σ with catalog := r.1 }
    | .error _ => σ
  | .addUnit u =>
    match σ.catalog.addUnit u with
    | .ok r => r.2.foldl hear { σ with catalog := r.1 }
    | .error _ => σ
  | .notifyUnit before after => (σ.catalog.announceUnit before after).foldl hear σ
  | .shutdown => { σ with isClosed := true }
  | .dropExecutor => { σ with isClosed := true, isDropped := true }
  | _ => σ

/-- The setting after an event. -/
def after (σ : Setting) : Cluster.Event → Setting
  | .asked r => σ.ask r
  | .moved _ => σ

/-- The setting of a cluster whose engines are registered, and whose executor is still to come. -/
def seeded (s : Cluster.Setup) : Setting :=
  (s.engines.map Prod.fst).foldl (fun σ e => σ.ask (.addEngine e)) (Cluster.blank s).setting

/-- The setting of a new cluster. -/
def start (s : Cluster.Setup) : Setting :=
  let hooked := { seeded s with catalog := (seeded s).catalog.addHook Cluster.executorHook }
  (hooked.catalog.engineList.filterMap StorageEngine.dummyUnit?).foldl learn hooked

theorem learn_flags (σ : Setting) (u : StorageUnit) :
    (σ.learn u).isClosed = σ.isClosed ∧ (σ.learn u).isDropped = σ.isDropped := by
  unfold learn
  split <;> exact ⟨rfl, rfl⟩

theorem hear_flags (σ : Setting) (call : Call StorageUnit) :
    (σ.hear call).isClosed = σ.isClosed ∧ (σ.hear call).isDropped = σ.isDropped := by
  unfold hear
  repeat' split
  all_goals first | exact ⟨rfl, rfl⟩ | exact learn_flags σ _

theorem Coherent.hear {σ : Setting} (h : σ.Coherent) (call : Call StorageUnit) :
    (σ.hear call).Coherent := by
  rcases σ.hear_flags call with ⟨hclosed, hdropped⟩
  unfold Coherent
  rwa [hclosed, hdropped]

theorem Coherent.learn {σ : Setting} (h : σ.Coherent) (u : StorageUnit) :
    (σ.learn u).Coherent := by
  rcases σ.learn_flags u with ⟨hclosed, hdropped⟩
  unfold Coherent
  rwa [hclosed, hdropped]

/-- What each of many steps keeps, all of them keep. -/
theorem Coherent.foldl {α : Type} {f : Setting → α → Setting}
    (hf : ∀ {σ : Setting}, σ.Coherent → ∀ a, (f σ a).Coherent) {σ : Setting} (h : σ.Coherent)
    (as : List α) : (as.foldl f σ).Coherent := by
  induction as generalizing σ with
  | nil => exact h
  | cons a rest ih => exact ih (hf h a)

theorem Coherent.after {σ : Setting} (h : σ.Coherent) (e : Cluster.Event) :
    (σ.after e).Coherent := by
  cases e with
  | moved s => exact h
  | asked r =>
    cases r with
    | addEngine e =>
      unfold Setting.after Setting.ask
      dsimp only
      split <;> exact h
    | addUnit u =>
      unfold Setting.after Setting.ask
      dsimp only
      split
      · rename_i r _
        exact Coherent.foldl Coherent.hear (σ := { σ with catalog := r.1 }) h r.2
      · exact h
    | notifyUnit before after => exact Coherent.foldl Coherent.hear h _
    | shutdown => exact fun _ => rfl
    | dropExecutor => exact fun _ => rfl
    | _ => exact h

theorem coherent_blank (s : Cluster.Setup) : (Cluster.blank s).setting.Coherent :=
  fun hdropped => absurd hdropped Bool.false_ne_true

theorem coherent_seeded (s : Cluster.Setup) : (seeded s).Coherent :=
  Coherent.foldl (f := fun σ e => σ.ask (.addEngine e)) (fun h e => h.after (.asked (.addEngine e)))
    (coherent_blank s) _

theorem coherent_start (s : Cluster.Setup) : (start s).Coherent :=
  Coherent.foldl Coherent.learn (σ := { seeded s with
    catalog := (seeded s).catalog.addHook Cluster.executorHook }) (coherent_seeded s) _

end Setting

namespace Cluster

variable {c c' : Cluster}

/-! ## What leaves the setting alone -/

theorem setting_modifyUnit (c : Cluster) (u : UnitId) {f : UnitLoop → UnitLoop}
    (hf : ∀ l, (f l).plate = l.plate) : (c.modifyUnit u f).setting = c.setting := by
  have hplates : (c.modifyUnit u f).units.map UnitLoop.plate = c.units.map UnitLoop.plate := by
    rw [modifyUnit, List.map_map]
    refine List.map_congr_left fun l _ => ?_
    by_cases hl : l.id = u <;> simp [hl, hf]
  rw [setting, hplates]
  rfl

theorem setting_offerEngine {e : StorageEngine} {isNew : Bool}
    (hoffer : c.offerEngine e = .ok (c', isNew)) : c'.setting = c.setting :=
  (offered_of_offerEngine hoffer).keeps fun _ _ => rfl

theorem setting_tryEngine (c : Cluster) (e : StorageEngine) :
    (c.tryEngine e).setting = c.setting :=
  tryEngine_keeps (fun _ _ => rfl) c e

theorem setting_engineCalled (c : Cluster) (call : Call StorageEngine) :
    (c.engineCalled call).setting = c.setting := by
  unfold engineCalled
  repeat' split
  all_goals first | rfl | exact setting_tryEngine c _

theorem setting_callDriver [PatternLibrary] (c : Cluster) (s : EngineSite) (t : TaskId)
    (task : Task) : (c.callDriver s t task).1.setting = c.setting := by
  unfold callDriver
  dsimp only
  split <;> rfl

theorem setting_enqueue {u : UnitId} {t : TaskId} (henqueue : c.enqueue u t = .ok c') :
    c'.setting = c.setting := by
  unfold enqueue at henqueue
  split at henqueue
  · cases henqueue
  · rw [← Except.ok.inj henqueue]
    exact setting_modifyUnit _ u fun _ => rfl

theorem setting_commit {t : TaskId} (hcommit : c.commit t = .ok c') : c'.setting = c.setting :=
  commit_keeps setting_enqueue hcommit

theorem setting_openGate (c : Cluster) (type : String) (n : Nat) :
    (c.openGate type n).setting = c.setting := by
  unfold openGate
  split <;> rfl

theorem setting_settleTask (c : Cluster) (t : TaskId) (r : TaskResult) :
    (c.settleTask t r).setting = c.setting :=
  settleTask_keeps (g := setting) (fun _ _ _ => rfl) (fun _ _ => rfl) (fun _ _ => rfl) c t r

theorem setting_observe (c : Cluster) (t : TaskId) (span : Duration) :
    (c.observe t span).setting = c.setting := by
  unfold observe
  repeat' split
  all_goals rfl

theorem setting_dispatch {l : UnitLoop} {d : Delivery} {rest : List Delivery}
    (h : c.Dispatch l d rest c') : c'.setting = c.setting := by
  have htaken : (c.takeFirst l d rest).setting = c.setting :=
    setting_modifyUnit c l.id (f := fun m => { m with queue := ⟨rest⟩ }) fun _ => rfl
  have hserved : ((c.takeFirst l d rest).serve l).setting = c.setting :=
    (setting_modifyUnit _ l.id (f := fun m => { m with phase := .serving }) fun _ => rfl).trans
      htaken
  cases h with
  | notReady _ => exact (setting_settleTask (c.takeFirst l d rest) d.task _).trans htaken
  | overloaded _ _ _ =>
    exact (setting_settleTask ((c.takeFirst l d rest).serve l) d.task _).trans hserved
  | submitted _ _ _ => exact hserved

/-- No move touches the setting. -/
theorem setting_step? [PatternLibrary] {s : Step} (h : c.step? s = some c') :
    c'.setting = c.setting := by
  cases s with
  | resolve u =>
    obtain ⟨l, _, _, _, rfl⟩ := serve_of_resolve? h
    exact setting_modifyUnit c l.id fun _ => rfl
  | giveUp u =>
    obtain ⟨l, _, _, _, rfl⟩ := resign_of_giveUp? h
    exact setting_modifyUnit c l.id fun _ => rfl
  | dispatch u =>
    obtain ⟨l, d, rest, _, _, _, _, hdispatch⟩ := dispatch_of_dispatch? h
    exact setting_dispatch hdispatch
  | start e =>
    change c.start? e = some c' at h
    unfold start? call at h
    dsimp only at h
    repeat' split at h
    all_goals cases h
    all_goals rfl
  | complete id elapsed =>
    obtain ⟨r, _, hcompletion⟩ := completion_of_complete? h
    have hclose : (c.close r elapsed).setting = c.setting := by
      change (settleTask _ r.delivery.task _).setting = _
      rw [setting_settleTask]
      exact setting_observe _ _ _
    rw [hcompletion.after]
    split
    · exact (broadcast_keeps (sendCopy_keeps (fun _ _ _ => rfl) setting_enqueue) _ _).trans hclose
    · exact hclose
  | admitMemory =>
    obtain ⟨t, rest, _, _, rfl⟩ := admitted_of_admitMemory? h
    rfl
  | startMemory =>
    obtain ⟨t, rest, _, _, rfl⟩ := started_of_startMemory? h
    rfl
  | runMemory t elapsed =>
    exact runMemory_keeps (g := setting) (fun _ _ => rfl) (fun _ _ _ _ => rfl) (fun _ _ => rfl)
      (fun _ _ => rfl) h

/-! ## What changes it -/

theorem any_known (c : Cluster) (u : UnitId) :
    (c.setting.known.any fun p => p.1 == u) = (c.unit? u).isSome := by
  rw [setting, List.any_map, unit?, Bool.eq_iff_iff, List.any_eq_true, List.find?_isSome]
  rfl

theorem setting_learnUnit (c : Cluster) (u : StorageUnit) :
    (c.learnUnit u).setting = c.setting.learn u := by
  unfold learnUnit Setting.learn
  rw [any_known]
  split
  · rename_i hknown
    exact (if_pos hknown).symm
  · rename_i hnew
    refine Eq.trans ?_ (if_neg hnew).symm
    rw [setting, List.map_append]
    rfl

/-- What the executor does not hear of any more, it would not have learnt. -/
theorem setting_unitCalled (h : c.setting.Coherent) (call : Call StorageUnit) :
    (c.unitCalled call).setting = c.setting.hear call := by
  rcases call with ⟨hook, before, after⟩
  by_cases hhook : hook = observerHook
  · simp only [unitCalled, Setting.hear, hhook, if_true]
    rfl
  simp only [unitCalled, Setting.hear, hhook, if_false]
  cases before with
  | some v => cases after <;> rfl
  | none =>
    cases after with
    | none => rfl
    | some u =>
      dsimp only
      split
      · exact setting_learnUnit c u
      · rename_i hdeaf
        have hdropped : c.isDropped = true := by
          simp only [isListening, Bool.or_eq_true, not_or, Bool.not_eq_true', Bool.not_eq_false]
            at hdeaf
          exact hdeaf.1.1
        have hclosed : c.setting.isClosed = true := h hdropped
        simp only [Setting.learn, hclosed, Bool.true_or, if_true]

theorem setting_foldl_unitCalled (h : c.setting.Coherent) (calls : List (Call StorageUnit)) :
    (calls.foldl unitCalled c).setting = calls.foldl Setting.hear c.setting := by
  induction calls generalizing c with
  | nil => rfl
  | cons call rest ih =>
    have hcalled := setting_unitCalled h call
    rw [List.foldl_cons, List.foldl_cons, ← hcalled]
    exact ih (hcalled ▸ h.hear call)

/-- Whether a request is about tasks, and what has been told of them, alone. -/
def Request.isWork : Request → Bool
  | .addEngine _ | .addUnit _ | .notifyUnit _ _ | .notifyEngine _ _ | .offerEngine _
  | .callDriver _ _ | .openGate _ _ | .shutdown | .dropExecutor => false
  | _ => true

variable [PatternLibrary]

/-- What tasks, the memory stage and the queues of units are not part of, such a request keeps. -/
theorem obey_keeps {β : Type} {g : Cluster → β} (htasks : ∀ c ts, g { c with tasks := ts } = g c)
    (hmemory : ∀ c m, g { c with memory := m } = g c)
    (hnotices : ∀ c ns, g { c with notices := ns } = g c)
    (hledger : ∀ c l, g { c with ledger := l } = g c)
    (henqueue : ∀ {c c' : Cluster} {u t}, c.enqueue u t = .ok c' → g c' = g c) (c : Cluster)
    {r : Request} (hr : r.isWork = true) : g (c.obey r).1 = g c := by
  by_cases htask : r.isTaskWork = true
  · exact obey_keeps_of_isTaskWork htasks c htask
  · cases r with
    | commit t =>
      unfold obey orRefused
      dsimp only
      split
      · rename_i hcommit
        exact commit_keeps henqueue hcommit
      · rfl
    | commitTo t u =>
      unfold obey orRefused
      dsimp only
      split
      · rename_i hsent
        exact henqueue hsent
      · rfl
    | commitAll ts =>
      have hsent : g (c.commitAll ts).1 = g c := commitAll_keeps henqueue ts c
      unfold obey
      dsimp only
      split <;> rename_i hpair <;> rw [hpair] at hsent <;> exact hsent
    | addMemory ts => exact foldl_keeps (fun c _ => hmemory c _) ts c
    | startMemory => exact hmemory c _
    | stopMemory => exact hmemory c _
    | takeNotices => exact hnotices c _
    | takeStats => exact hledger c _
    | _ => first | exact absurd rfl htask | cases hr

theorem setting_obey (h : c.setting.Coherent) (r : Request) :
    (c.obey r).1.setting = c.setting.ask r := by
  -- Work leaves the setting alone, for the cluster and for the machine; only the rest is compared.
  by_cases hwork : r.isWork = true
  · have hask : c.setting.ask r = c.setting := by
      cases r <;> first | rfl | cases hwork
    rw [hask]
    exact obey_keeps (fun _ _ => rfl) (fun _ _ => rfl) (fun _ _ => rfl) (fun _ _ => rfl)
      setting_enqueue c hwork
  cases r with
  | addEngine e =>
    have hask : c.setting.ask (.addEngine e) = match c.catalog.addEngine e with
      | .ok r => { c.setting with catalog := r.1 }
      | .error _ => c.setting := rfl
    rw [hask, obey, addEngine]
    cases c.catalog.addEngine e with
    | error f => rfl
    | ok r => exact foldl_keeps setting_engineCalled r.2 { c with catalog := r.1 }
  | addUnit u =>
    have hask : c.setting.ask (.addUnit u) = match c.catalog.addUnit u with
      | .ok r => r.2.foldl Setting.hear { c.setting with catalog := r.1 }
      | .error _ => c.setting := rfl
    rw [hask, obey, addUnit]
    cases c.catalog.addUnit u with
    | error f => rfl
    | ok r => exact setting_foldl_unitCalled (c := { c with catalog := r.1 }) h r.2
  | notifyUnit before after => exact setting_foldl_unitCalled h _
  | notifyEngine before after => exact foldl_keeps setting_engineCalled _ c
  | offerEngine e =>
    unfold obey
    dsimp only
    split
    · rename_i hoffer
      exact setting_offerEngine hoffer
    · rfl
  | callDriver e t =>
    unfold obey
    dsimp only
    split
    · rename_i s task _ _
      have hcall := setting_callDriver c s t task
      split <;> rename_i hpair <;> rw [hpair] at hcall <;> exact hcall
    · rfl
  | openGate type n => exact setting_openGate c type n
  | shutdown => rfl
  | dropExecutor => rfl
  | _ => exact absurd rfl hwork

/-- A request takes the setting where the machine does. -/
theorem setting_handle (h : c.setting.Coherent) (r : Request) :
    (c.handle r).1.setting = c.setting.ask r := by
  unfold handle
  split
  · exact setting_obey h r
  · rename_i hunfit
    -- What may not fit is about tasks, and does not change the setting anyway.
    cases r <;> first | rfl | exact absurd rfl hunfit

/-- So does every event. -/
theorem setting_after? (h : c.setting.Coherent) {e : Event} (hafter : c.after? e = some c') :
    c'.setting = c.setting.after e := by
  cases e with
  | asked r =>
    rcases Option.some.inj hafter with rfl
    exact setting_handle h r
  | moved s => exact setting_step? hafter

theorem seedEngine_eq (c : Cluster) (e : StorageEngine) :
    c.seedEngine e = (c.obey (.addEngine e)).1 := by
  unfold seedEngine obey
  dsimp only
  cases c.addEngine e <;> rfl

theorem setting_launch (s : Setup) (factories : List (String × Factory))
    (given : List StorageEngine) : (launch s factories given).setting = Setting.start s := by
  have hseeded : ∀ (es : List StorageEngine) (c : Cluster), c.setting.Coherent →
      (es.foldl seedEngine c).setting =
        es.foldl (fun σ e => σ.ask (.addEngine e)) c.setting := by
    intro es
    induction es with
    | nil => exact fun _ _ => rfl
    | cons e rest ih =>
      intro c h
      have hone : (c.seedEngine e).setting = c.setting.ask (.addEngine e) := by
        rw [seedEngine_eq, setting_obey h]
      rw [List.foldl_cons, List.foldl_cons, ← hone]
      exact ih _ (hone ▸ h.after (.asked (.addEngine e)))
  have hlearnt : ∀ (us : List StorageUnit) (c : Cluster),
      (us.foldl learnUnit c).setting = us.foldl Setting.learn c.setting := fun us c =>
    (List.foldl_hom setting fun c u => (setting_learnUnit c u).symm).symm
  -- Making engines ready changes no setting, so the executor starts from the registered engines.
  have hready : (given.foldl tryEngine ((s.engines.map Prod.fst).foldl seedEngine
      (bare s factories))).setting = Setting.seeded s := by
    rw [foldl_keeps setting_tryEngine,
      hseeded _ (bare s factories) (Setting.coherent_blank s)]
    rfl
  unfold launch Setting.start
  dsimp only
  rw [hlearnt, ← hready]
  rfl

theorem setting_build (s : Setup) : (build s).setting = Setting.start s :=
  setting_launch s _ _

theorem setting_run? (h : c.setting.Coherent) {events : List Event}
    (hrun : c.run? events = some c') : c'.setting = events.foldl Setting.after c.setting := by
  induction events generalizing c with
  | nil => rw [Option.some.inj hrun]; rfl
  | cons e rest ih =>
    rcases Option.bind_eq_some_iff.mp hrun with ⟨c₁, hafter, hrest⟩
    have hone := setting_after? h hafter
    rw [List.foldl_cons, ← hone]
    exact ih (hone ▸ h.after e) hrest

end Cluster
end SeriesExec
