import Mathlib.Data.List.Induction
import SeriesExec.Proofs.ByteOrder
import SeriesExec.Proofs.Conservation
import SeriesExec.Proofs.Groups
import SeriesExec.Proofs.Noninterference
import SeriesExec.Proofs.Results
import SeriesExec.Proofs.Settings

/-!
# Discovery — units become known once

The executor is told of units by the engines that it starts with, by the catalog and by others, and
may be told of one unit many times, and different things each time.  This file defines:

* `Cluster.heardBy` — the unit that an event tells the executor of;
* `Cluster.announced` — all that it is told of until it is shut down;
* `enlist` and `plates` — what it makes of that.

Main statements: the known units are what the first announcements say (`find?_plates`,
`known_of_run?`), and nothing else changes when a known unit is announced (`units_discovered`).
-/

namespace SeriesExec

/-! ## First announcements -/

/-- The known units once one more has been announced. -/
def enlist (known : List (UnitId × EngineId × Bool)) (u : StorageUnit) :
    List (UnitId × EngineId × Bool) :=
  if known.any fun p => p.1 == u.id then known else known ++ [u.plate]

/-- The known units after these announcements. -/
def plates (us : List StorageUnit) : List (UnitId × EngineId × Bool) :=
  us.foldl enlist []

theorem plates_snoc (us : List StorageUnit) (u : StorageUnit) :
    plates (us ++ [u]) = enlist (plates us) u :=
  List.foldl_append

theorem prefix_enlist (known : List (UnitId × EngineId × Bool)) (u : StorageUnit) :
    known <+: enlist known u := by
  unfold enlist
  split
  · exact List.prefix_rfl
  · exact List.prefix_append _ _

theorem prefix_foldl_enlist (us : List StorageUnit) (known : List (UnitId × EngineId × Bool)) :
    known <+: us.foldl enlist known := by
  induction us generalizing known with
  | nil => exact List.prefix_rfl
  | cons u rest ih => exact (prefix_enlist known u).trans (ih _)

theorem plates_mono {us vs : List StorageUnit} (h : us <+: vs) : plates us <+: plates vs := by
  rcases h with ⟨more, rfl⟩
  rw [plates, plates, List.foldl_append]
  exact prefix_foldl_enlist more _

/-- A unit is known as it was announced first. -/
theorem find?_plates (us : List StorageUnit) (id : UnitId) :
    (plates us).find? (fun p => p.1 == id) =
      (us.find? fun u => u.id == id).map StorageUnit.plate := by
  induction us using List.reverseRecOn with
  | nil => rfl
  | append_singleton us u ih =>
    rw [plates_snoc, List.find?_append, enlist]
    split
    · rename_i hknown
      -- The unit has been announced before, under its own name.
      rw [ih]
      by_cases hid : u.id = id
      · subst hid
        have hsome : ((us.find? fun v => v.id == u.id).map StorageUnit.plate).isSome = true := by
          rw [← ih, List.find?_isSome]
          exact List.any_eq_true.mp hknown
        rw [Option.isSome_map] at hsome
        rcases Option.isSome_iff_exists.mp hsome with ⟨v, hv⟩
        rw [hv, Option.some_or]
      · rw [List.find?_cons_of_neg (by simpa using hid), List.find?_nil, Option.or_none]
    · rw [List.find?_append, ih]
      by_cases hid : u.id = id
      · subst hid
        rw [List.find?_cons_of_pos (by simp [StorageUnit.plate]), List.find?_cons_of_pos (by simp)]
        cases us.find? fun v => v.id == u.id <;> rfl
      · rw [List.find?_cons_of_neg (by simpa [StorageUnit.plate] using hid),
          List.find?_cons_of_neg (by simpa using hid), List.find?_nil, List.find?_nil,
          Option.or_none, Option.or_none]

theorem nodup_plates (us : List StorageUnit) : ((plates us).map Prod.fst).Nodup := by
  induction us using List.reverseRecOn with
  | nil => exact List.nodup_nil
  | append_singleton us u ih =>
    rw [plates_snoc, enlist]
    split
    · exact ih
    · rename_i hnew
      rw [List.map_append, List.map_singleton]
      refine List.nodup_append.mpr ⟨ih, List.nodup_singleton _, ?_⟩
      intro a ha b hb hab
      rcases List.mem_map.mp ha with ⟨p, hp, rfl⟩
      have hid : p.1 = u.id := hab.trans (List.mem_singleton.mp hb)
      exact hnew (List.any_eq_true.mpr ⟨p, hp, beq_iff_eq.mpr hid⟩)

theorem mem_plates {us : List StorageUnit} {p : UnitId × EngineId × Bool} (hp : p ∈ plates us) :
    ∃ u, us.find? (fun u => u.id == p.1) = some u ∧ u.plate = p := by
  have hfound : (plates us).find? (fun q => q.1 == p.1) = some p :=
    Traffic.find?_of_nodup_map (nodup_plates us) hp
  rw [find?_plates] at hfound
  exact Option.map_eq_some_iff.mp hfound

theorem mem_map_fst_plates {us : List StorageUnit} {id : UnitId} :
    id ∈ (plates us).map Prod.fst ↔ ∃ u ∈ us, u.id = id := by
  have hfound : id ∈ (plates us).map Prod.fst ↔
      ((plates us).find? fun p => p.1 == id).isSome = true := by
    rw [List.mem_map, List.find?_isSome]
    simp only [beq_iff_eq]
  rw [hfound, find?_plates, Option.isSome_map, List.find?_isSome]
  simp only [beq_iff_eq]

/-! ## What the executor is told of -/

namespace Setting

variable {σ : Setting}

/-- The observer and the executor hear of units, in this order. -/
def Hooked (σ : Setting) : Prop :=
  σ.catalog.unitHooks = [Cluster.observerHook, Cluster.executorHook]

/-- Of the calls that tell of a change the executor takes its own, if it is about a new unit. -/
theorem foldl_hear (h : σ.Hooked) (before after : Option StorageUnit) (τ : Setting) :
    (σ.catalog.announceUnit before after).foldl hear τ =
      match before, after with
      | none, some u => τ.learn u
      | _, _ => τ := by
  rw [Catalog.announceUnit, h]
  cases before <;> cases after <;> rfl

/-- The unit that an event tells the executor of. -/
def heardBy (σ : Setting) : Cluster.Event → List StorageUnit
  | .asked (.notifyUnit none (some u)) => [u]
  | .asked (.addUnit u) => if (σ.catalog.addUnit u).isOk then [u] else []
  | _ => []

/-- The registration of an engine changes the catalog, but not who listens to it. -/
theorem exists_ask_addEngine (σ : Setting) (e : StorageEngine) :
    ∃ k : Catalog, k.unitHooks = σ.catalog.unitHooks ∧
      σ.ask (.addEngine e) = { σ with catalog := k } := by
  unfold ask
  dsimp only
  split
  · rename_i r hadd
    exact ⟨r.1, by rw [(Catalog.added_of_addEngine hadd).1], rfl⟩
  · exact ⟨σ.catalog, rfl, rfl⟩

/-- An event that does not shut the executor down changes the catalog, but not who listens to it,
and the executor learns what it is told. -/
theorem exists_after (h : σ.Hooked) {e : Cluster.Event} (he : e.keepsOpen = true) :
    ∃ k : Catalog, k.unitHooks = σ.catalog.unitHooks ∧
      σ.after e = (σ.heardBy e).foldl learn { σ with catalog := k } := by
  cases e with
  | moved s => exact ⟨σ.catalog, rfl, rfl⟩
  | asked r =>
    cases r with
    | addEngine e => exact exists_ask_addEngine σ e
    | addUnit u =>
      unfold after ask heardBy
      dsimp only
      split
      · rename_i r hadd
        rcases Catalog.registered_of_addUnit hadd with ⟨hregistered, hcalls⟩
        refine ⟨r.1, hregistered.unitHooks, ?_⟩
        rw [hadd, hcalls, foldl_hear h]
        rfl
      · rename_i hadd
        rw [hadd]
        exact ⟨σ.catalog, rfl, rfl⟩
    | notifyUnit before after =>
      refine ⟨σ.catalog, rfl, (foldl_hear h before after σ).trans ?_⟩
      cases before <;> cases after <;> rfl
    | shutdown => cases he
    | dropExecutor => cases he
    | _ => exact ⟨σ.catalog, rfl, rfl⟩

/-- Learning changes which units are known, and nothing else. -/
theorem foldl_learn (us : List StorageUnit) (σ : Setting) :
    us.foldl learn σ =
      { σ with known := if σ.isClosed then σ.known else us.foldl enlist σ.known } := by
  induction us generalizing σ with
  | nil =>
    rcases σ with ⟨config, catalog, router, monitors, known, isClosed, isDropped⟩
    cases isClosed <;> rfl
  | cons u rest ih =>
    have hone : σ.learn u =
        { σ with known := if σ.isClosed then σ.known else enlist σ.known u } := by
      rcases σ with ⟨config, catalog, router, monitors, known, isClosed, isDropped⟩
      unfold learn enlist
      cases isClosed with
      | true => rfl
      | false =>
        simp only [Bool.false_or, Bool.false_eq_true, if_false]
        split <;> rfl
    rw [List.foldl_cons, ih, hone]
    cases σ.isClosed <;> rfl

theorem after_of_open (h : σ.Hooked) (hopen : σ.isClosed = false) {e : Cluster.Event}
    (he : e.keepsOpen = true) :
    (σ.after e).Hooked ∧ (σ.after e).isClosed = false ∧
      (σ.after e).known = (σ.heardBy e).foldl enlist σ.known := by
  obtain ⟨k, hhooks, hafter⟩ := exists_after h he
  rw [hafter, foldl_learn, hopen]
  exact ⟨hhooks.trans h, rfl, rfl⟩

/-- Once the loops are off nothing becomes known. -/
theorem after_of_closed (h : σ.Hooked) (hclosed : σ.isClosed = true) (e : Cluster.Event) :
    (σ.after e).Hooked ∧ (σ.after e).isClosed = true ∧ (σ.after e).known = σ.known := by
  by_cases he : e.keepsOpen = true
  · obtain ⟨k, hhooks, hafter⟩ := exists_after h he
    rw [hafter, foldl_learn, hclosed]
    exact ⟨hhooks.trans h, rfl, rfl⟩
  · cases e with
    | moved s => exact absurd rfl he
    | asked r => cases r <;> first | exact ⟨h, rfl, rfl⟩ | exact absurd rfl he

theorem after_of_closing (h : σ.Hooked) {e : Cluster.Event} (he : e.keepsOpen = false) :
    (σ.after e).Hooked ∧ (σ.after e).isClosed = true ∧ (σ.after e).known = σ.known := by
  cases e with
  | moved s => cases he
  | asked r => cases r <;> first | exact ⟨h, rfl, rfl⟩ | cases he

theorem known_of_closed (h : σ.Hooked) (hclosed : σ.isClosed = true)
    (events : List Cluster.Event) : (events.foldl after σ).known = σ.known := by
  induction events generalizing σ with
  | nil => rfl
  | cons e rest ih =>
    rcases after_of_closed h hclosed e with ⟨hhooked, hstill, hknown⟩
    exact (ih hhooked hstill).trans hknown

/-! ## The start -/

theorem exists_seeded (s : Cluster.Setup) :
    ∃ k : Catalog, k.unitHooks = [Cluster.observerHook] ∧
      seeded s = { (Cluster.blank s).setting with catalog := k } := by
  have hfold : ∀ (es : List StorageEngine) (σ : Setting),
      ∃ k : Catalog, k.unitHooks = σ.catalog.unitHooks ∧
        es.foldl (fun σ e => σ.ask (.addEngine e)) σ = { σ with catalog := k } := by
    intro es
    induction es with
    | nil => exact fun σ => ⟨σ.catalog, rfl, rfl⟩
    | cons e rest ih =>
      intro σ
      obtain ⟨k₁, hhooks₁, hone⟩ := exists_ask_addEngine σ e
      obtain ⟨k, hhooks, hrest⟩ := ih { σ with catalog := k₁ }
      exact ⟨k, hhooks.trans hhooks₁, by rw [List.foldl_cons, hone, hrest]⟩
  exact hfold (s.engines.map Prod.fst) (Cluster.blank s).setting

/-- A new executor listens, and knows the dummy units of the registered engines. -/
theorem start_spec (s : Cluster.Setup) :
    (start s).Hooked ∧ (start s).isClosed = false ∧
      (start s).known =
        plates ((start s).catalog.engineList.filterMap StorageEngine.dummyUnit?) := by
  obtain ⟨k, hhooks, hseeded⟩ := exists_seeded s
  unfold start
  dsimp only
  rw [foldl_learn, hseeded]
  exact ⟨congrArg (· ++ [Cluster.executorHook]) hhooks, rfl, rfl⟩

end Setting

namespace Cluster

variable {c c' : Cluster} {s : Setup}

section

variable [PatternLibrary]

/-- The units that a history tells the executor of. -/
def news (c : Cluster) (events : List Event) : List StorageUnit :=
  c.trace (fun c e => c.setting.heardBy e) events

/-- All units that the executor is told of until it is shut down: the dummy units of the engines
that it starts with, and then what it hears. -/
def announced (s : Setup) (events : List Event) : List StorageUnit :=
  (build s).catalog.engineList.filterMap StorageEngine.dummyUnit? ++
    (build s).news (events.takeWhile Event.keepsOpen)

theorem trace_mono {α : Type} (f : Cluster → Event → List α) {first whole : List Event}
    (h : first <+: whole) (c : Cluster) : c.trace f first <+: c.trace f whole := by
  rcases h with ⟨more, rfl⟩
  induction first generalizing c with
  | nil => exact List.nil_prefix
  | cons e rest ih =>
    rw [List.cons_append, trace, trace]
    cases c.after? e with
    | none => exact List.prefix_rfl
    | some c' => exact (List.prefix_append_right_inj _).mpr (ih c')

/-- What has been announced stays announced. -/
theorem announced_mono (s : Setup) (events later : List Event) :
    announced s events <+: announced s (events ++ later) := by
  have hopen : events.takeWhile Event.keepsOpen <+:
      (events ++ later).takeWhile Event.keepsOpen := by
    rw [List.takeWhile_append]
    split
    · exact (List.takeWhile_prefix _).trans (List.prefix_append _ _)
    · exact List.prefix_rfl
  exact (List.prefix_append_right_inj _).mpr (trace_mono _ hopen _)

theorem known_of_run? (hcoherent : c.setting.Coherent) (h : c.setting.Hooked)
    (hopen : c.setting.isClosed = false) {events : List Event} (hrun : c.run? events = some c') :
    c'.setting.known =
      (c.news (events.takeWhile Event.keepsOpen)).foldl enlist c.setting.known := by
  induction events generalizing c with
  | nil =>
    rcases Option.some.inj hrun with rfl
    rfl
  | cons e rest ih =>
    rcases Option.bind_eq_some_iff.mp hrun with ⟨c₁, hafter, hrest⟩
    have hone := setting_after? hcoherent hafter
    have hcoherent₁ : c₁.setting.Coherent := hone ▸ hcoherent.after e
    by_cases he : e.keepsOpen = true
    · rcases Setting.after_of_open h hopen he with ⟨hhooked, hstill, hknown⟩
      rw [← hone] at hhooked hstill hknown
      rw [List.takeWhile_cons_of_pos he, news, trace_cons _ hafter, List.foldl_append, ← hknown]
      exact ih hcoherent₁ hhooked hstill hrest
    · rcases Setting.after_of_closing h (Bool.eq_false_of_not_eq_true he) with
        ⟨hhooked, hclosed, hknown⟩
      rw [← hone] at hhooked hclosed hknown
      rw [List.takeWhile_cons_of_neg he, setting_run? hcoherent₁ hrest,
        Setting.known_of_closed hhooked hclosed, hknown]
      rfl

/-- The known units are what the first announcements say. -/
theorem known_eq_plates {s : Setup} {events : List Event}
    (hrun : (build s).run? events = some c) :
    c.units.map UnitLoop.plate = plates (announced s events) := by
  obtain ⟨hhooked, hopen, hknown⟩ := Setting.start_spec s
  have hsetting := setting_build s
  rw [← hsetting] at hhooked hopen hknown
  have hall := known_of_run? (hsetting ▸ Setting.coherent_start s) hhooked hopen hrun
  rw [announced, plates, List.foldl_append]
  rw [hknown] at hall
  exact hall

end

/-! ## Later announcements -/

/-- A change of a unit tells of none that could still become known. -/
def IsOldNews (c : Cluster) (before after : Option StorageUnit) : Prop :=
  ∀ u, before = none → after = some u → c.isClosed = true ∨ (c.unit? u.id).isSome = true

theorem quiet_unitCalled {hook : HookId} {before after : Option StorageUnit}
    (h : c.IsOldNews before after) : (c.unitCalled ⟨hook, before, after⟩).quiet = c.quiet := by
  rw [unitCalled]
  split
  · rfl
  · rcases before with _ | v
    · rcases after with _ | u
      · rfl
      · have hlearn : c.learnUnit u = c :=
          if_pos (by simpa only [Bool.or_eq_true] using h u rfl rfl)
        dsimp only
        rw [hlearn, ite_self]
    · rcases after with _ | u <;> rfl

/-- Nothing but the notices shows how often something was told. -/
theorem quiet_foldl_unitCalled {before after : Option StorageUnit} (hooks : List HookId)
    (h : c.IsOldNews before after) :
    ((hooks.map fun hook => ⟨hook, before, after⟩).foldl unitCalled c).quiet = c.quiet := by
  induction hooks generalizing c with
  | nil => rfl
  | cons hook rest ih =>
    have hone : (c.unitCalled ⟨hook, before, after⟩).quiet = c.quiet := quiet_unitCalled h
    -- What is old news does not depend on the notices, which are all that has changed.
    have hquiet : (c.unitCalled ⟨hook, before, after⟩).quiet.IsOldNews before after := by
      rw [hone]
      exact h
    exact (ih (c := c.unitCalled ⟨hook, before, after⟩) hquiet).trans hone

theorem quiet_notifyUnit [PatternLibrary] {before after : Option StorageUnit}
    (h : c.IsOldNews before after) : (c.handle (.notifyUnit before after)).1.quiet = c.quiet :=
  quiet_foldl_unitCalled c.catalog.unitHooks h

theorem quiet_addUnit [PatternLibrary] {u : StorageUnit} (h : c.IsOldNews none (some u)) :
    ∃ k, (c.handle (.addUnit u)).1.quiet = { c.quiet with catalog := k } := by
  have hfits : c.fits (.addUnit u) = true := rfl
  rw [handle, if_pos hfits, obey, addUnit]
  cases hadd : c.catalog.addUnit u with
  | error f => exact ⟨c.catalog, rfl⟩
  | ok r =>
    have hcalls := (Catalog.registered_of_addUnit hadd).2
    refine ⟨r.1, ?_⟩
    change (r.2.foldl unitCalled { c with catalog := r.1 }).quiet = _
    rw [hcalls]
    exact quiet_foldl_unitCalled (c := { c with catalog := r.1 }) c.catalog.unitHooks h

/-! ## All of it -/

theorem unitIds_perm (c : Cluster) : c.unitIds.Perm (c.units.map UnitLoop.id) :=
  List.mergeSort_perm _ _

theorem map_fst_plate (c : Cluster) :
    (c.units.map UnitLoop.plate).map Prod.fst = c.units.map UnitLoop.id :=
  List.map_map

/-- The names of the known units ascend, byte by byte, if each of them has one loop. -/
theorem unitIds_sorted (h : (c.units.map UnitLoop.id).Nodup) :
    c.unitIds.Pairwise fun a b => Text.bytes a < Text.bytes b := by
  have transitive : ∀ a b d : UnitId, decide (a ≤ b) = true → decide (b ≤ d) = true →
      decide (a ≤ d) = true := fun a b d hab hbd =>
    decide_eq_true (le_trans (of_decide_eq_true hab) (of_decide_eq_true hbd))
  have total : ∀ a b : UnitId, (decide (a ≤ b) || decide (b ≤ a)) = true := fun a b => by
    simpa using le_total a b
  have hle : c.unitIds.Pairwise fun a b => decide (a ≤ b) = true :=
    List.pairwise_mergeSort transitive total _
  have hne : c.unitIds.Nodup := (unitIds_perm c).nodup_iff.mpr h
  refine (hle.and hne).imp fun {a b} hab => ?_
  exact Text.bytes_lt_bytes (lt_of_le_of_ne (of_decide_eq_true hab.1) hab.2)

/-- Discovery is idempotent.  After any history the names of the known units ascend byte by byte,
and they are those of the dummy units of the engines that were registered at the start, and of the
units that hooks were called about, as new ones, until the executor was shut down.  Each of them has
one loop, with the engine and the mark of its first announcement, and keeps these whatever comes
later.  Calling the hooks about a change that tells of no new unit leaves nothing but a notice, and
everything that comes later goes as it would have gone without; and registering a known unit changes
nothing but the catalog besides. -/
theorem units_discovered [PatternLibrary] {s : Setup} {events : List Event}
    (hrun : (build s).run? events = some c) :
    (c.unitIds.Pairwise fun a b => Text.bytes a < Text.bytes b) ∧
      (∀ id, id ∈ c.unitIds ↔ ∃ u ∈ announced s events, u.id = id) ∧
      (c.units.map UnitLoop.id).Nodup ∧
      (∀ l ∈ c.units,
        ∃ u, (announced s events).find? (fun u => u.id == l.id) = some u ∧ u.plate = l.plate) ∧
      (∀ later c', c.run? later = some c' →
        c.units.map UnitLoop.plate <+: c'.units.map UnitLoop.plate) ∧
      (∀ before after, c.IsOldNews before after →
        (c.handle (.notifyUnit before after)).1.quiet = c.quiet ∧
          ∀ later, ((c.handle (.notifyUnit before after)).1.run? later).map quiet =
            (c.run? later).map quiet) ∧
      ∀ u, c.IsOldNews none (some u) →
        ∃ k, (c.handle (.addUnit u)).1.quiet = { c.quiet with catalog := k } := by
  have hplates := known_eq_plates hrun
  have hids : c.units.map UnitLoop.id = (plates (announced s events)).map Prod.fst := by
    rw [← hplates, map_fst_plate]
  have hnodup : (c.units.map UnitLoop.id).Nodup := hids ▸ nodup_plates _
  refine ⟨unitIds_sorted hnodup, fun id => ?_, hnodup, fun l hl => ?_, fun later c' hlater => ?_,
    fun before after hold => ?_, fun u => quiet_addUnit⟩
  · rw [(unitIds_perm c).mem_iff, hids, mem_map_fst_plates]
  · exact mem_plates (hplates ▸ List.mem_map_of_mem hl)
  · have hboth : (build s).run? (events ++ later) = some c' := by
      rw [run?_append, hrun]
      exact hlater
    rw [hplates, known_eq_plates hboth]
    exact plates_mono (announced_mono s events later)
  · have hquiet := quiet_notifyUnit hold
    exact ⟨hquiet, fun later => run?_quiet hquiet later⟩

/-- A node with two engines, of which the first brings data along. -/
def ladenSetup : Setup :=
  { sampleSetup with engines :=
    [({ StorageEngine.plain 1 "outside" with hasData := true }, true),
      (StorageEngine.plain 2 "outside", true)] }

/-- A unit is announced on one engine, then on another one, and then it is registered; after the
shutdown another unit is announced. -/
def repeatedEvents : List Event :=
  [.asked (.notifyUnit none (some (StorageUnit.newMaster "unit" 1))),
    .asked (.notifyUnit none (some (StorageUnit.newMaster "unit" 2))),
    .moved (.resolve "unit"), .asked (.addUnit (StorageUnit.newMaster "unit" 2)), .asked .shutdown,
    .asked (.notifyUnit none (some (StorageUnit.newMaster "late" 1)))]

theorem units_discovered_sample : ∃ c, (build ladenSetup).run? repeatedEvents = some c ∧
    c.units.map UnitLoop.plate = [("dummy0000000001", 1, true), ("unit", 1, false)] ∧
    (∀ id, id ∈ c.unitIds ↔ id = "dummy0000000001" ∨ id = "unit") ∧
    (c.handle (.notifyUnit none (some (StorageUnit.newMaster "unit" 2)))).1.quiet = c.quiet := by
  obtain ⟨c, hrun, hplates, hold⟩ : ∃ c ∈ (build ladenSetup).run? repeatedEvents,
      c.units.map UnitLoop.plate = [("dummy0000000001", 1, true), ("unit", 1, false)] ∧
        (c.unit? "unit").isSome = true := by
    decide
  obtain ⟨_, hids, _, _, _, hrepeat, _⟩ := units_discovered hrun
  have hannounced : ∀ id, (∃ u ∈ announced ladenSetup repeatedEvents, u.id = id) ↔
      id ∈ (announced ladenSetup repeatedEvents).map StorageUnit.id := fun id => List.mem_map.symm
  have hall : (announced ladenSetup repeatedEvents).map StorageUnit.id =
      ["dummy0000000001", "unit", "unit", "unit"] := by
    decide
  refine ⟨c, hrun, hplates, fun id => ?_, (hrepeat none _ fun u _ hu => .inr ?_).1⟩
  · rw [hids, hannounced, hall]
    simp
  · rw [← Option.some.inj hu]
    exact hold

end Cluster
end SeriesExec
