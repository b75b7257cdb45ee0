import SeriesExec.Proofs.Settings
import SeriesExec.Proofs.Stores

/-!
# Supplies — what becomes of engines, and of what makes their drivers

Engines become ready by being offered, and nothing takes that back.  This file defines:

* `Script.Continues`, `Factory.Continues`, `Driver.Continues` and `EngineSite.Continues` — the same
  thing later, with more calls behind it;
* `Cluster.Supplied` — what time does to the engines and factories while some engines are offered;
* `Cluster.Manned` — the drivers of all engines are where they come from.

Main statements: an engine that is not ready becomes so with the first offer that a driver can be
made for (`supplied_tryEngine`, `Supplied.trans`), and no move makes an engine ready or takes one
away (`supplied_step?`).
-/

namespace SeriesExec

/-! ## The same thing later -/

/-- The script after more calls of its driver. -/
structure Script.Continues (s s' : Script) : Prop where
  entries : s'.entries = s.entries
  series : s'.series = s.series
  seriesError : s'.seriesError = s.seriesError
  calls : s.calls <+: s'.calls

/-- The factory after more calls of the drivers that it has made. -/
inductive Factory.Continues : Factory → Factory → Prop where
  | store : Factory.Continues .store .store
  | scripted {s s' : Script} (h : s.Continues s') : Factory.Continues (.scripted s) (.scripted s')
  | broken : Factory.Continues .broken .broken

/-- The driver after more calls: a store has executed them, and an outside driver is what it was. -/
inductive Driver.Continues [PatternLibrary] : Driver → Driver → Prop where
  | store (s : Store) (calls : List Store.StoreCall) :
      Driver.Continues (.store s) (.store (s.replay calls).1)
  | scripted (type : String) : Driver.Continues (.scripted type) (.scripted type)

/-- The engine with the workers it had, and the driver after more calls. -/
structure EngineSite.Continues [PatternLibrary] (s s' : EngineSite) : Prop where
  id : s'.id = s.id
  workers : s'.workers = s.workers
  driver : s.driver.Continues s'.driver

theorem Script.Continues.refl (s : Script) : s.Continues s :=
  ⟨rfl, rfl, rfl, List.prefix_rfl⟩

theorem Script.Continues.trans {s s' s'' : Script} (h : s.Continues s') (h' : s'.Continues s'') :
    s.Continues s'' :=
  ⟨h'.entries.trans h.entries, h'.series.trans h.series, h'.seriesError.trans h.seriesError,
    h.calls.trans h'.calls⟩

theorem Script.continues_take (s : Script) (call : DriverCall) : s.Continues (s.take call) :=
  ⟨rfl, rfl, rfl, List.prefix_append _ _⟩

theorem Factory.Continues.refl (f : Factory) : f.Continues f := by
  cases f with
  | store => exact .store
  | scripted s => exact .scripted (.refl s)
  | broken => exact .broken

theorem Factory.Continues.trans {f f' f'' : Factory} (h : f.Continues f')
    (h' : f'.Continues f'') : f.Continues f'' := by
  cases h with
  | store => exact h'
  | broken => exact h'
  | scripted h =>
    cases h' with
    | scripted h' => exact .scripted (h.trans h')

theorem Factory.Continues.build_eq {f f' : Factory} (h : f.Continues f') (e : StorageEngine) :
    f'.build e = f.build e := by
  cases h <;> rfl

section

variable [PatternLibrary]

theorem Driver.Continues.refl (d : Driver) : d.Continues d := by
  cases d with
  | store s => exact .store s []
  | scripted type => exact .scripted type

theorem Driver.Continues.trans {d d' d'' : Driver} (h : d.Continues d') (h' : d'.Continues d'') :
    d.Continues d'' := by
  cases h with
  | scripted type => exact h'
  | store s calls =>
    cases h' with
    | store _ more =>
      have hall := congrArg Prod.fst (s.replay_append calls more)
      exact hall ▸ .store s (calls ++ more)

/-- A store that executes one more task. -/
theorem Driver.continues_execute (s : Store) (t : TaskId) (stamp : Option UnitId)
    (operators : List Operator) :
    (Driver.store s).Continues (.store (s.execute t stamp operators).1) :=
  .store s [⟨t, stamp, operators⟩]

theorem EngineSite.Continues.refl (s : EngineSite) : s.Continues s :=
  ⟨rfl, rfl, .refl _⟩

theorem EngineSite.Continues.trans {s s' s'' : EngineSite} (h : s.Continues s')
    (h' : s'.Continues s'') : s.Continues s'' :=
  ⟨h'.id.trans h.id, h'.workers.trans h.workers, h.driver.trans h'.driver⟩

end

namespace Cluster

variable {c c' c'' : Cluster} {e : StorageEngine} {es es' : List StorageEngine} {id : EngineId}
  {s s' : EngineSite} {type : String}

/-! ## What time does -/

/-- The first of some engines that has this number and that a driver can be made for. -/
def firstFor (c : Cluster) (id : EngineId) (es : List StorageEngine) : Option StorageEngine :=
  es.find? fun e => e.id == id && (c.driverFor e).isOk

/-- What has become of an engine that was not ready before it was offered. -/
def MadeFor [PatternLibrary] (c : Cluster) (e : StorageEngine) (s : EngineSite) : Prop :=
  ∃ d, c.driverFor e = .ok d ∧ (c.freshSite e d).Continues s

/-- What time does to the engines and factories while some engines are offered: engines that are
ready stay so, and each other one becomes ready with the first offer that a driver can be made
for. -/
structure Supplied [PatternLibrary] (c : Cluster) (es : List StorageEngine) (c' : Cluster) :
    Prop where
  config : c'.config = c.config
  factory : ∀ type, Option.Rel Factory.Continues (c.factory? type) (c'.factory? type)
  kept : ∀ {id s}, c.engine? id = some s → ∃ s', c'.engine? id = some s' ∧ s.Continues s'
  made : ∀ {id}, c.engine? id = none →
    Option.Rel c.MadeFor (c.firstFor id es) (c'.engine? id)

/-- The drivers of all engines are where they come from: outside drivers have their scripts. -/
def Manned (c : Cluster) : Prop :=
  ∀ id s type, c.engine? id = some s → s.driver = .scripted type →
    ∃ script, c.factory? type = some (.scripted script)

/-- The part of a cluster that engines become ready by. -/
def supplies (c : Cluster) :
    ExecutorConfig × List (EngineId × EngineSite) × List (String × Factory) :=
  (c.config, c.engines, c.factories)

theorem factory?_congr (h : c'.factories = c.factories) (type : String) :
    c'.factory? type = c.factory? type := by
  rw [factory?, factory?, h]

theorem rel_refl (o : Option Factory) : Option.Rel Factory.Continues o o := by
  cases o with
  | none => exact .none
  | some f => exact .some (.refl f)

theorem firstFor_append (c : Cluster) (id : EngineId) (es es' : List StorageEngine) :
    c.firstFor id (es ++ es') = (c.firstFor id es).or (c.firstFor id es') :=
  List.find?_append

theorem firstFor_singleton (c : Cluster) (id : EngineId) (e : StorageEngine) :
    c.firstFor id [e] = if e.id = id ∧ (c.driverFor e).isOk = true then some e else none := by
  rw [firstFor, List.find?_singleton]
  simp only [Bool.and_eq_true, beq_iff_eq]

theorem isSome_firstFor_iff : (c.firstFor id es).isSome = true ↔
    ∃ e ∈ es, e.id = id ∧ (c.driverFor e).isOk = true := by
  simp only [firstFor, List.find?_isSome, Bool.and_eq_true, beq_iff_eq]

theorem id_of_firstFor (h : c.firstFor id es = some e) :
    e.id = id ∧ (c.driverFor e).isOk = true := by
  have hfound := List.find?_some h
  simpa only [Bool.and_eq_true, beq_iff_eq] using hfound

section

variable [PatternLibrary]

/-- Whatever happens to the engines that are ready, and to the scripts, if no engine is offered. -/
theorem Supplied.of_kept (hconfig : c'.config = c.config)
    (hfactory : ∀ type, Option.Rel Factory.Continues (c.factory? type) (c'.factory? type))
    (hengine : ∀ id, Option.Rel EngineSite.Continues (c.engine? id) (c'.engine? id)) :
    Supplied c [] c' where
  config := hconfig
  factory := hfactory
  kept {id s} hs := by
    have hrel := hengine id
    rw [hs] at hrel
    generalize c'.engine? id = o at hrel
    cases hrel with
    | some h => exact ⟨_, rfl, h⟩
  made {id} hnone := by
    have hrel := hengine id
    rw [hnone] at hrel
    generalize c'.engine? id = o at hrel
    cases hrel
    exact .none

theorem Supplied.of_supplies (h : c'.supplies = c.supplies) : Supplied c [] c' := by
  obtain ⟨hconfig, hrest⟩ := Prod.mk.inj h
  obtain ⟨hengines, hfactories⟩ := Prod.mk.inj hrest
  refine .of_kept hconfig (fun type => ?_) fun id => ?_
  · rw [factory?_congr hfactories]
    exact rel_refl _
  · rw [engine?, engine?, hengines]
    cases KeyedList.find? id c.engines with
    | none => exact .none
    | some s => exact .some (.refl s)

/-- Whether a driver can be made for an engine, and which one, does not change. -/
theorem Supplied.driverFor_eq (h : Supplied c es c') (e : StorageEngine) :
    c'.driverFor e = c.driverFor e := by
  have hrel := h.factory e.type
  rw [driverFor, driverFor]
  generalize c.factory? e.type = o at hrel
  generalize c'.factory? e.type = o' at hrel
  cases hrel with
  | none => rfl
  | some hf => exact hf.build_eq e

theorem Supplied.madeFor (h : Supplied c es c') (hmade : c'.MadeFor e s) : c.MadeFor e s := by
  obtain ⟨d, hd, hcontinues⟩ := hmade
  rw [freshSite, h.config] at hcontinues
  exact ⟨d, h.driverFor_eq e ▸ hd, hcontinues⟩

theorem Supplied.firstFor_eq (h : Supplied c es c') (id : EngineId) (es' : List StorageEngine) :
    c'.firstFor id es' = c.firstFor id es' := by
  simp only [firstFor, h.driverFor_eq]

theorem Supplied.trans (h : Supplied c es c') (h' : Supplied c' es' c'') :
    Supplied c (es ++ es') c'' where
  config := h'.config.trans h.config
  factory type := by
    have hrel := h.factory type
    have hrel' := h'.factory type
    generalize c.factory? type = o at hrel
    generalize c'.factory? type = o' at hrel hrel'
    generalize c''.factory? type = o'' at hrel'
    cases hrel with
    | none => exact hrel'
    | some hf =>
      cases hrel' with
      | some hf' => exact .some (hf.trans hf')
  kept hs := by
    obtain ⟨s', hs', hcontinues⟩ := h.kept hs
    obtain ⟨s'', hs'', hcontinues'⟩ := h'.kept hs'
    exact ⟨s'', hs'', hcontinues.trans hcontinues'⟩
  made {id} hnone := by
    have hrel := h.made hnone
    rw [firstFor_append]
    generalize c.firstFor id es = o at hrel ⊢
    -- The engine was made by the first offers, or there is still none and the later ones decide.
    cases hmiddle : c'.engine? id with
    | none =>
      rw [hmiddle] at hrel
      have hrel' := h'.made hmiddle
      rw [h.firstFor_eq] at hrel'
      cases hrel
      generalize c.firstFor id es' = o' at hrel' ⊢
      generalize c''.engine? id = o'' at hrel' ⊢
      cases hrel' with
      | none => exact .none
      | some hmade => exact .some (h.madeFor hmade)
    | some s' =>
      rw [hmiddle] at hrel
      obtain ⟨s'', hs'', hcontinues'⟩ := h'.kept hmiddle
      rw [hs'']
      cases hrel with
      | some hmade =>
        obtain ⟨d, hd, hcontinues⟩ := hmade
        exact .some ⟨d, hd, hcontinues.trans hcontinues'⟩

theorem Manned.supplied (hm : c.Manned) (h : Supplied c es c') : c'.Manned := by
  -- An outside driver comes from a factory with a script, and both stay what they are.
  have hscript : ∀ {type script}, c.factory? type = some (.scripted script) →
      ∃ script', c'.factory? type = some (.scripted script') := by
    intro type script hfactory
    have hrel := h.factory type
    rw [hfactory] at hrel
    generalize c'.factory? type = o at hrel
    cases hrel with
    | some hf =>
      cases hf
      exact ⟨_, rfl⟩
  intro id s' type hs' hdriver
  cases hs : c.engine? id with
  | some s =>
    obtain ⟨t, ht, hcontinues⟩ := h.kept hs
    cases hs'.symm.trans ht
    have hd := hcontinues.driver
    rw [hdriver] at hd
    generalize hd₀ : s.driver = d₀ at hd
    cases hd
    obtain ⟨script, hfactory⟩ := hm _ _ _ hs hd₀
    exact hscript hfactory
  | none =>
    have hrel := h.made hs
    rw [hs'] at hrel
    generalize c.firstFor id es = o at hrel
    cases hrel with
    | @some e _ hmade =>
      obtain ⟨d, hd, hcontinues⟩ := hmade
      have hmade := hcontinues.driver
      rw [hdriver] at hmade
      change d.Continues _ at hmade
      cases hmade
      rw [driverFor] at hd
      cases hfactory : c.factory? e.type with
      | none =>
        rw [hfactory] at hd
        cases hd
      | some f =>
        rw [hfactory] at hd
        cases f with
        | store =>
          unfold Factory.build at hd
          dsimp only at hd
          split at hd <;> cases hd
        | broken => cases hd
        | scripted script =>
          cases hd
          exact hscript hfactory

/-! ## Offers and calls -/

theorem Supplied.of_offered {answer : Except Fault Bool} (h : c.Offered e answer c') :
    Supplied c [e] c' := by
  -- An offer that changes nothing is of an engine that is ready, or that no driver is made for.
  have hnothing : ((c.engine? e.id).isSome ∨ (c.driverFor e).isOk = false) → Supplied c [e] c := by
    refine fun hno => ⟨rfl, fun _ => rel_refl _, fun hs => ⟨_, hs, .refl _⟩, fun {id} hnone => ?_⟩
    have hnot : ¬(e.id = id ∧ (c.driverFor e).isOk = true) := by
      rintro ⟨rfl, hok⟩
      rcases hno with hready | hfails
      · exact absurd hready (by rw [hnone]; exact Bool.false_ne_true)
      · exact absurd (hok.symm.trans hfails) (by decide)
    rw [firstFor_singleton, if_neg hnot, hnone]
    exact .none
  cases h with
  | known hready => exact hnothing (.inl hready)
  | failed _ f hf => exact hnothing (.inr (by rw [hf]; rfl))
  | made hnone d hd =>
    have hput : ∀ id, (c.putEngine (c.freshSite e d)).engine? id =
        if id = e.id then some (c.freshSite e d) else c.engine? id := engine?_putEngine c _
    have hok : (c.driverFor e).isOk = true := by rw [hd]; rfl
    refine ⟨rfl, fun _ => rel_refl _, fun {id s} hs => ?_, fun {id} hid => ?_⟩
    · have hne : id ≠ e.id := by
        rintro rfl
        cases hnone.symm.trans hs
      exact ⟨s, (hput id).trans ((if_neg hne).trans hs), .refl s⟩
    · rw [hput, hid, firstFor_singleton]
      by_cases hsame : id = e.id
      · rw [if_pos ⟨hsame.symm, hok⟩, if_pos hsame]
        exact .some ⟨d, hd, .refl _⟩
      · rw [if_neg fun h => hsame h.1.symm, if_neg hsame]
        exact .none

/-- An engine that is offered becomes ready, if a driver can be made for it. -/
theorem supplied_tryEngine (c : Cluster) (e : StorageEngine) : Supplied c [e] (c.tryEngine e) := by
  obtain ⟨_, hoffered⟩ := exists_offered_tryEngine c e
  exact .of_offered hoffered

theorem supplied_foldl_tryEngine (es : List StorageEngine) (c : Cluster) :
    Supplied c es (es.foldl tryEngine c) := by
  induction es generalizing c with
  | nil => exact .of_supplies rfl
  | cons e rest ih => exact (supplied_tryEngine c e).trans (ih (c.tryEngine e))

/-- An engine that is put in anew, in place of what was there. -/
theorem supplied_putEngine (s' : EngineSite) (hs : c.engine? s'.id = some s)
    (hcontinues : s.Continues s') : Supplied c [] (c.putEngine s') := by
  refine .of_kept rfl (fun _ => rel_refl _) fun id => ?_
  rw [engine?_putEngine]
  split
  · rename_i hid
    rw [hid, hs]
    exact .some hcontinues
  · cases c.engine? id with
    | none => exact .none
    | some t => exact .some (.refl t)

/-- A script that is put in anew, in place of what was there. -/
theorem supplied_putScript {script script' : Script}
    (hscript : c.factory? type = some (.scripted script)) (hcontinues : script.Continues script') :
    Supplied c [] (c.putScript type script') := by
  refine .of_kept rfl (fun other => ?_) fun id => ?_
  · have hput : (c.putScript type script').factory? other =
        if other = type then some (.scripted script') else c.factory? other :=
      KeyedList.find?_insert ..
    rw [hput]
    split
    · rename_i hother
      rw [hother, hscript]
      exact .some (.scripted hcontinues)
    · exact rel_refl _
  · change Option.Rel _ (c.engine? id) (c.engine? id)
    cases c.engine? id with
    | none => exact .none
    | some t => exact .some (.refl t)

omit [PatternLibrary] in
theorem script?_of_factory? {script : Script} (h : c.factory? type = some (.scripted script)) :
    c.script? type = some script := by
  rw [factory?] at h
  rw [script?, h]

theorem supplied_callDriver (hm : c.Manned) (hs : c.engine? s.id = some s) (t : TaskId)
    (task : Task) : Supplied c [] (c.callDriver s t task).1 := by
  unfold callDriver
  dsimp only
  split
  · rename_i store hdriver
    exact supplied_putEngine { s with driver := .store _ } hs
      ⟨rfl, rfl, hdriver ▸ Driver.continues_execute store ..⟩
  · rename_i type hdriver
    obtain ⟨script, hfactory⟩ := hm _ _ _ hs hdriver
    rw [script?_of_factory? hfactory]
    exact supplied_putScript hfactory (Script.continues_take script _)

theorem supplied_call (hm : c.Manned) (hs : c.engine? s.id = some s) (d : Delivery)
    (task : Task) : Supplied c [] (c.call s d task) := by
  unfold call
  dsimp only
  split
  · rename_i store hdriver
    let r := store.execute d.task (task.storage?.bind StorageShape.stamp) task.operators
    have hput : Supplied c [] (c.putEngine { s with driver := .store r.1 }) :=
      supplied_putEngine _ hs ⟨rfl, rfl, hdriver ▸ Driver.continues_execute store ..⟩
    exact hput.trans (.of_supplies rfl)
  · rename_i type hdriver
    obtain ⟨script, hfactory⟩ := hm _ _ _ hs hdriver
    rw [script?_of_factory? hfactory]
    exact (supplied_putScript hfactory (Script.continues_take script _)).trans (.of_supplies rfl)

theorem supplied_openGate (c : Cluster) (type : String) (n : Nat) :
    Supplied c [] (c.openGate type n) := by
  unfold openGate
  split
  · exact .of_supplies rfl
  · rename_i script hscript
    have hfactory : c.factory? type = some (.scripted script) := by
      unfold script? at hscript
      split at hscript
      · rename_i hfound
        cases hscript
        exact hfound
      · cases hscript
    have hcontinues : script.Continues
        { script with permits := script.permits + (c.admitHeld type n c.running).2 } :=
      ⟨rfl, rfl, rfl, List.prefix_rfl⟩
    have hadmitted : Supplied c [] { c with running := (c.admitHeld type n c.running).1 } :=
      .of_supplies rfl
    exact hadmitted.trans (supplied_putScript hfactory hcontinues)

end

/-! ## Moves -/

theorem supplies_enqueue {u : UnitId} {t : TaskId} (henqueue : c.enqueue u t = .ok c') :
    c'.supplies = c.supplies := by
  unfold enqueue at henqueue
  split at henqueue
  · cases henqueue
  · rw [← Except.ok.inj henqueue]
    rfl

theorem supplies_settleTask (c : Cluster) (t : TaskId) (r : TaskResult) :
    (c.settleTask t r).supplies = c.supplies :=
  settleTask_keeps (fun _ _ _ => rfl) (fun _ _ => rfl) (fun _ _ => rfl) c t r

theorem supplies_close (c : Cluster) (r : Run) (elapsed : Duration) :
    (c.close r elapsed).supplies = c.supplies := by
  have hobserve : ∀ (c : Cluster) t, (c.observe t elapsed).supplies = c.supplies := by
    intro c t
    unfold observe
    repeat' split
    all_goals rfl
  change (settleTask _ r.delivery.task _).supplies = _
  rw [supplies_settleTask]
  exact hobserve _ _

variable [PatternLibrary]

theorem supplied_dispatch (horderly : c.traffic.Orderly) {l : UnitLoop} {d : Delivery}
    {rest : List Delivery} (h : c.Dispatch l d rest c') : Supplied c [] c' := by
  cases h with
  | notReady _ => exact .of_supplies (supplies_settleTask (c.takeFirst l d rest) d.task _)
  | overloaded _ _ _ =>
    exact .of_supplies (supplies_settleTask ((c.takeFirst l d rest).serve l) d.task _)
  | submitted s hs _ =>
    have hid : s.id = l.engine := horderly.id_of_engine? hs
    rw [← hid] at hs
    have hserved : Supplied c [] ((c.takeFirst l d rest).serve l) := .of_supplies rfl
    exact hserved.trans (supplied_putEngine { s with waiting := s.waiting.push d } hs
      ⟨rfl, rfl, .refl _⟩)

/-- No move makes an engine ready, or takes one away. -/
theorem supplied_step? (hm : c.Manned) (horderly : c.traffic.Orderly) {m : Step}
    (h : c.step? m = some c') : Supplied c [] c' := by
  -- A dispatch and a start change what waits at a site, and a start calls its driver; the other
  -- moves touch no site.
  cases m with
  | resolve u =>
    obtain ⟨l, _, _, _, rfl⟩ := serve_of_resolve? h
    exact .of_supplies rfl
  | giveUp u =>
    obtain ⟨l, _, _, _, rfl⟩ := resign_of_giveUp? h
    exact .of_supplies rfl
  | dispatch u =>
    obtain ⟨l, d, rest, _, _, _, _, hdispatch⟩ := dispatch_of_dispatch? h
    exact supplied_dispatch horderly hdispatch
  | start e =>
    change c.start? e = some c' at h
    unfold start? at h
    split at h
    · cases h
    · rename_i s hs
      have hid : s.id = e := horderly.id_of_engine? hs
      subst hid
      split at h
      · split at h
        · cases h
        · rename_i d rest _
          cases h
          have hput := supplied_putEngine { s with waiting := rest } hs ⟨rfl, rfl, .refl _⟩
          refine hput.trans (supplied_call (hm.supplied hput) ?_ d _)
          exact (engine?_putEngine c { s with waiting := rest } s.id).trans (if_pos rfl)
      · cases h
  | complete id elapsed =>
    obtain ⟨r, _, hcompletion⟩ := completion_of_complete? h
    refine .of_supplies ?_
    rw [hcompletion.after]
    split
    · exact (broadcast_keeps (sendCopy_keeps (fun _ _ _ => rfl) supplies_enqueue) _ _).trans
        (supplies_close c r elapsed)
    · exact supplies_close c r elapsed
  | admitMemory =>
    obtain ⟨t, rest, _, _, rfl⟩ := admitted_of_admitMemory? h
    exact .of_supplies rfl
  | startMemory =>
    obtain ⟨t, rest, _, _, rfl⟩ := started_of_startMemory? h
    exact .of_supplies rfl
  | runMemory t elapsed =>
    exact .of_supplies (runMemory_keeps (fun _ _ => rfl) (fun _ _ _ _ => rfl) (fun _ _ => rfl)
      (fun _ _ => rfl) h)

end Cluster
end SeriesExec
