import Mathlib.Data.List.Nodup
import SeriesExec.Topology.Registry

/-!
# Groups — masters list their replicas, and nobody else

A replica is registered twice: under its own name, and in the list that its master keeps.  This file
defines:

* `StorageUnit.follows` and `StorageUnit.joined` — whose list a unit gets into, and that list then;
* `Catalog.Registered` — what the registration of a unit needs and changes;
* `Catalog.Consistent` — how the two places of a replica fit together, and in which order replicas
  stand in the list of their master: that of the registrations that have succeeded.

Main statements: the registration of a unit keeps the catalog consistent (`Registered.consistent`),
so every row of registrations does (`consistent_after`), whatever fails among them, and what fails
leaves no trace (`groups_consistent`).
-/

namespace SeriesExec

namespace StorageUnit

/-- Whether the unit is a replica of the master of that name. -/
def follows (master : UnitId) (u : StorageUnit) : Bool :=
  !u.isMaster && u.masterId == master

/-- What is registered as `master` once the unit `u` is registered. -/
def joined (master : UnitId) (u m : StorageUnit) : StorageUnit :=
  if u.follows master then { m with replicas := m.replicas ++ [u] } else m

/-- The unit is made as a master or as a replica. -/
structure IsMade (u : StorageUnit) : Prop where
  alone : u.replicas = []
  leads : u.isMaster = true → u.masterId = u.id

variable {master : UnitId} {u m : StorageUnit}

theorem follows_iff : u.follows master = true ↔ u.isMaster = false ∧ u.masterId = master := by
  rw [follows, Bool.and_eq_true, Bool.not_eq_true', beq_iff_eq]

@[simp]
theorem isMaster_joined : (joined master u m).isMaster = m.isMaster := by
  unfold joined
  split <;> rfl

@[simp]
theorem id_joined : (joined master u m).id = m.id := by
  unfold joined
  split <;> rfl

@[simp]
theorem engine_joined : (joined master u m).engine = m.engine := by
  unfold joined
  split <;> rfl

@[simp]
theorem masterId_joined : (joined master u m).masterId = m.masterId := by
  unfold joined
  split <;> rfl

theorem replicas_joined :
    (joined master u m).replicas = m.replicas ++ [u].filter (follows master) := by
  unfold joined
  split <;> rename_i h <;> simp [h]

end StorageUnit

open StorageUnit (follows joined follows_iff isMaster_joined id_joined engine_joined masterId_joined
  replicas_joined)

theorem Registration.isMade {r : Registration} {u : StorageUnit} (h : r.unit? = some u) :
    u.IsMade := by
  cases r with
  | master id e =>
    rcases Option.some.inj h with rfl
    exact ⟨rfl, fun _ => rfl⟩
  | replica id e m =>
    rcases Option.some.inj h with rfl
    exact ⟨rfl, fun hu => nomatch hu⟩
  | _ => cases h

namespace Catalog

variable {c c' : Catalog} {admitted : List StorageUnit} {u : StorageUnit} {id : UnitId}

/-! ## Registering one unit -/

/-- What the registration of a unit needs, and what it changes. -/
structure Registered (c : Catalog) (u : StorageUnit) (c' : Catalog) : Prop where
  isNew : c.unit? u.id = none
  homed : KeyedList.contains u.engine c.engines = true
  led : u.isMaster = false → ∃ m, c.unit? u.masterId = some m ∧ m.isMaster = true
  engines : c'.engines = c.engines
  unitHooks : c'.unitHooks = c.unitHooks
  units : ∀ v, c'.unit? v = if v = u.id then some u else (c.unit? v).map (joined v u)

theorem attached_of_attach {units : List (UnitId × StorageUnit)}
    (h : attach c.units u = .ok units) :
    (u.isMaster = false → ∃ m, c.unit? u.masterId = some m ∧ m.isMaster = true) ∧
      ∀ v, KeyedList.find? v units = (c.unit? v).map (joined v u) := by
  unfold attach at h
  split at h
  · rename_i hu
    rcases Except.ok.inj h with rfl
    refine ⟨fun hreplica => absurd (hu.symm.trans hreplica) (by decide), fun v => ?_⟩
    -- Nobody is joined by a master.
    have hsame : joined v u = id := by
      funext m
      rw [joined, follows, hu]
      rfl
    rw [hsame, Option.map_id]
    rfl
  · rename_i hu
    split at h
    · cases h
    · rename_i m hm
      have hfind : c.unit? u.masterId = some m := hm
      cases hadd : m.addReplica u with
      | error f =>
        rw [hadd] at h
        cases h
      | ok grown =>
        rw [hadd] at h
        rcases Except.ok.inj h with rfl
        unfold StorageUnit.addReplica at hadd
        repeat' split at hadd
        all_goals try cases hadd
        rename_i hmaster _ _
        refine ⟨fun _ => ⟨m, hfind, by simpa using hmaster⟩, fun v => ?_⟩
        rw [KeyedList.find?_insert]
        have hreplica : u.isMaster = false := by simpa using hu
        split
        · rename_i hv
          rw [hv, hfind, Option.map_some, joined, if_pos (follows_iff.mpr ⟨hreplica, rfl⟩)]
        · rename_i hv
          have hsame : joined v u = id := by
            funext m
            rw [joined, if_neg fun hf => hv (follows_iff.mp hf).2.symm]
            rfl
          rw [hsame, Option.map_id]
          rfl

theorem registered_of_addUnit {calls : List (Call StorageUnit)}
    (h : c.addUnit u = .ok (c', calls)) :
    c.Registered u c' ∧ calls = c.announceUnit none (some u) := by
  unfold addUnit at h
  split at h
  · cases h
  · rename_i hnew
    split at h
    · cases h
    · rename_i hengine
      cases hattach : attach c.units u with
      | error f =>
        rw [hattach] at h
        cases h
      | ok units =>
        rw [hattach] at h
        rcases Prod.mk.inj (Except.ok.inj h) with ⟨rfl, rfl⟩
        obtain ⟨hled, hunits⟩ := attached_of_attach hattach
        refine ⟨⟨?_, by simpa using hengine, hled, rfl, rfl, fun v => ?_⟩, rfl⟩
        · rwa [← KeyedList.isSome_find?, Bool.not_eq_true, Option.isSome_eq_false_iff,
            Option.isNone_iff_eq_none] at hnew
        · rw [unit?, KeyedList.find?_insert, hunits]

/-! ## All registered units -/

/-- The units `admitted` have been registered in this order, each on an engine, and those of them
that are replicas are in the lists of their masters. -/
structure Consistent (c : Catalog) (admitted : List StorageUnit) : Prop where
  named : ∀ id u, c.unit? id = some u → u.id = id
  homed : ∀ id u, c.unit? id = some u → KeyedList.contains u.engine c.engines = true
  known : ∀ id, (c.unit? id).isSome = true ↔ id ∈ admitted.map StorageUnit.id
  nodup : (admitted.map StorageUnit.id).Nodup
  led : ∀ id u, c.unit? id = some u → u.isMaster = false →
    u ∈ admitted ∧ ∃ m, c.unit? u.masterId = some m ∧ m.isMaster = true
  lists : ∀ id m, c.unit? id = some m → m.isMaster = true →
    m.masterId = id ∧ m.replicas = admitted.filter (follows id)
  kept : ∀ u ∈ admitted, u.isMaster = false → c.unit? u.id = some u

theorem consistent_empty (node : Nat) : (empty node).Consistent [] where
  named := fun _ _ h => nomatch h
  homed := fun _ _ h => nomatch h
  known := fun _ => ⟨(nomatch ·), (nomatch ·)⟩
  nodup := List.nodup_nil
  led := fun _ _ h => nomatch h
  lists := fun _ _ h => nomatch h
  kept := fun _ h => nomatch h

/-- A unit that has not been registered has no replicas. -/
theorem Consistent.filter_eq_nil (h : c.Consistent admitted) (hnew : c.unit? id = none) :
    admitted.filter (follows id) = [] := by
  refine List.filter_eq_nil_iff.mpr ?_
  intro r hr hfollows
  rcases follows_iff.mp hfollows with ⟨hreplica, hmaster⟩
  obtain ⟨_, m, hm, _⟩ := h.led r.id r (h.kept r hr hreplica) hreplica
  rw [hmaster, hnew] at hm
  cases hm

/-- Who is found after the registration of `u` is `u` itself, or has been there before. -/
theorem Registered.cases (h : c.Registered u c') {v : StorageUnit} (hv : c'.unit? id = some v) :
    (id = u.id ∧ v = u) ∨ ∃ m, c.unit? id = some m ∧ v = joined id u m := by
  rw [h.units] at hv
  split at hv
  · rename_i hid
    exact .inl ⟨hid, (Option.some.inj hv).symm⟩
  · rcases Option.map_eq_some_iff.mp hv with ⟨m, hm, rfl⟩
    exact .inr ⟨m, hm, rfl⟩

/-- A replica that has been registered stays as it is, since nobody can join it. -/
theorem Registered.unit?_of_replica (h : c.Registered u c') {r : StorageUnit}
    (hr : c.unit? id = some r) (hreplica : r.isMaster = false) : joined id u r = r := by
  unfold joined
  split
  · rename_i hfollows
    rcases follows_iff.mp hfollows with ⟨hu, rfl⟩
    obtain ⟨m, hm, hmaster⟩ := h.led hu
    rw [hr] at hm
    rcases Option.some.inj hm with rfl
    exact absurd (hmaster.symm.trans hreplica) (by decide)
  · rfl

/-- Who has been registered is registered still. -/
theorem Registered.unit?_of_some (h : c.Registered u c') {m : StorageUnit}
    (hm : c.unit? id = some m) : c'.unit? id = some (joined id u m) := by
  have hne : id ≠ u.id := by
    rintro rfl
    rw [h.isNew] at hm
    cases hm
  rw [h.units, if_neg hne, hm, Option.map_some]

theorem Registered.consistent (h : c.Registered u c') (hc : c.Consistent admitted)
    (hmade : u.IsMade) : c'.Consistent (admitted ++ [u]) where
  named id v hv := by
    rcases h.cases hv with ⟨rfl, rfl⟩ | ⟨m, hm, rfl⟩
    · rfl
    · rw [id_joined]
      exact hc.named id m hm
  homed id v hv := by
    rw [h.engines]
    rcases h.cases hv with ⟨_, rfl⟩ | ⟨m, hm, rfl⟩
    · exact h.homed
    · rw [engine_joined]
      exact hc.homed id m hm
  known id := by
    rw [h.units, List.map_append, List.mem_append, ← hc.known id]
    by_cases hid : id = u.id <;> simp [hid]
  nodup := by
    have hnew : u.id ∉ admitted.map StorageUnit.id := by
      rw [← hc.known, h.isNew]
      exact Bool.false_ne_true
    rw [List.map_append, List.map_singleton]
    exact List.nodup_append.mpr ⟨hc.nodup, List.nodup_singleton _, fun a ha b hb hab =>
      hnew (by rwa [← List.mem_singleton.mp hb, ← hab])⟩
  led id v hv hreplica := by
    -- The master of a replica, old or new, has been there before.
    have hled : v ∈ admitted ++ [u] ∧ ∃ m, c.unit? v.masterId = some m ∧ m.isMaster = true := by
      rcases h.cases hv with ⟨_, rfl⟩ | ⟨m, hm, rfl⟩
      · exact ⟨List.mem_append_right _ List.mem_cons_self, h.led hreplica⟩
      · rw [isMaster_joined] at hreplica
        rw [h.unit?_of_replica hm hreplica]
        rcases hc.led id m hm hreplica with ⟨hmem, hmaster⟩
        exact ⟨List.mem_append_left _ hmem, hmaster⟩
    rcases hled with ⟨hmem, m, hm, hmaster⟩
    exact ⟨hmem, joined v.masterId u m, h.unit?_of_some hm, by rwa [isMaster_joined]⟩
  lists id m hm hmaster := by
    rw [List.filter_append]
    rcases h.cases hm with ⟨rfl, rfl⟩ | ⟨m, hold, rfl⟩
    · have hnot : ¬ m.follows m.id = true := fun hf =>
        absurd (hmaster.symm.trans (follows_iff.mp hf).1) (by decide)
      rw [hc.filter_eq_nil h.isNew, hmade.alone, List.filter_cons_of_neg hnot]
      exact ⟨hmade.leads hmaster, rfl⟩
    · rw [isMaster_joined] at hmaster
      rcases hc.lists id m hold hmaster with ⟨hid, hreplicas⟩
      rw [masterId_joined, replicas_joined, hreplicas]
      exact ⟨hid, rfl⟩
  kept r hr hreplica := by
    rcases List.mem_append.mp hr with hr | hr
    · have hfound := hc.kept r hr hreplica
      rw [h.unit?_of_some hfound, h.unit?_of_replica hfound hreplica]
    · rw [List.mem_singleton.mp hr, h.units, if_pos rfl]

/-- What registers no unit, and forgets no engine, leaves the groups alone. -/
theorem Consistent.of_units (h : c.Consistent admitted) (hunits : c'.units = c.units)
    (hengines : ∀ e, KeyedList.contains e c.engines = true →
      KeyedList.contains e c'.engines = true) : c'.Consistent admitted := by
  have hunit : ∀ id, c'.unit? id = c.unit? id := fun id => by rw [unit?, unit?, hunits]
  exact {
    named := fun id u hu => h.named id u (hunit id ▸ hu)
    homed := fun id u hu => hengines _ (h.homed id u (hunit id ▸ hu))
    known := fun id => hunit id ▸ h.known id
    nodup := h.nodup
    led := fun id u hu hreplica => by
      rcases h.led id u (hunit id ▸ hu) hreplica with ⟨hmem, m, hm, hmaster⟩
      exact ⟨hmem, m, (hunit _).trans hm, hmaster⟩
    lists := fun id m hm => h.lists id m (hunit id ▸ hm)
    kept := fun u hu hreplica => (hunit _).trans (h.kept u hu hreplica) }

/-! ## The group of a master -/

section Group

variable (h : c.Consistent admitted) (hu : c.unit? id = some u) (hmaster : u.isMaster = true)
include h hu hmaster

theorem Consistent.mem_replicas_iff {r : StorageUnit} :
    r ∈ u.replicas ↔ c.unit? r.id = some r ∧ r.isMaster = false ∧ r.masterId = id := by
  rw [(h.lists id u hu hmaster).2, List.mem_filter, follows_iff]
  constructor
  · rintro ⟨hr, hfollows⟩
    exact ⟨h.kept r hr hfollows.1, hfollows⟩
  · rintro ⟨hr, hfollows⟩
    exact ⟨(h.led r.id r hr hfollows.1).1, hfollows⟩

theorem Consistent.groupIds_eq : u.groupIds = id :: u.replicas.map StorageUnit.id := by
  rw [StorageUnit.groupIds, (h.lists id u hu hmaster).1]

/-- A master does not list itself, and no replica twice. -/
theorem Consistent.nodup_groupIds : u.groupIds.Nodup := by
  rw [h.groupIds_eq hu hmaster, List.nodup_cons]
  constructor
  · intro hown
    -- A master under the name of its own replica would be a replica itself.
    rcases List.mem_map.mp hown with ⟨r, hr, rfl⟩
    rcases (h.mem_replicas_iff hu hmaster).mp hr with ⟨hfound, hreplica, _⟩
    rw [hu] at hfound
    rcases Option.some.inj hfound with rfl
    exact absurd (hmaster.symm.trans hreplica) (by decide)
  · rw [(h.lists id u hu hmaster).2]
    exact h.nodup.sublist (List.filter_sublist.map _)

theorem Consistent.isSome_of_mem_groupIds {v : UnitId} (hv : v ∈ u.groupIds) :
    (c.unit? v).isSome = true := by
  rw [h.groupIds_eq hu hmaster] at hv
  rcases List.mem_cons.mp hv with rfl | hv
  · exact Option.isSome_of_eq_some hu
  · rcases List.mem_map.mp hv with ⟨r, hr, rfl⟩
    exact Option.isSome_of_eq_some ((h.mem_replicas_iff hu hmaster).mp hr).1

end Group

/-! ## Registrations -/

theorem added_of_addEngine {e : StorageEngine} {calls : List (Call StorageEngine)}
    (h : c.addEngine e = .ok (c', calls)) :
    c' = { c with engines := KeyedList.insert e.id e c.engines } ∧
      calls = c.announceEngine none (some e) := by
  unfold addEngine at h
  split at h
  · cases h
  · rcases Prod.mk.inj (Except.ok.inj h) with ⟨rfl, rfl⟩
    exact ⟨rfl, rfl⟩

theorem contains_insert_of_contains {e d : EngineId} {s : StorageEngine}
    {engines : List (EngineId × StorageEngine)} (h : KeyedList.contains d engines = true) :
    KeyedList.contains d (KeyedList.insert e s engines) = true := by
  rw [← KeyedList.isSome_find?, KeyedList.find?_insert]
  split
  · rfl
  · rwa [KeyedList.isSome_find?]

/-- What a registration that succeeds does to the catalog, and which hooks it calls. -/
structure Succeeds (c : Catalog) (r : Registration) (c' : Catalog)
    (calls : List (Call StorageUnit) × List (Call StorageEngine)) : Prop where
  consistent : ∀ admitted, c.Consistent admitted → c'.Consistent (admitted ++ r.unit?.toList)
  unitCalls : calls.1 = r.unit?.toList.flatMap fun u => c.announceUnit none (some u)
  engineCalls : calls.2 = r.engine?.toList.flatMap fun e => c.announceEngine none (some e)

theorem succeeds_of_unit {r : Registration}
    {calls : List (Call StorageUnit) × List (Call StorageEngine)} (hr : r.unit? = some u)
    (he : r.engine? = none)
    (hregister : c.register r = (c.addUnit u).map fun added => (added.1, added.2, []))
    (h : c.register r = .ok (c', calls)) : c.Succeeds r c' calls := by
  rw [hregister] at h
  cases hadd : c.addUnit u with
  | error f =>
    rw [hadd] at h
    cases h
  | ok added =>
    rw [hadd] at h
    rcases Prod.mk.inj (Except.ok.inj h) with ⟨rfl, rfl⟩
    rcases registered_of_addUnit hadd with ⟨hregistered, hcalls⟩
    refine ⟨fun admitted hc => ?_, ?_, ?_⟩
    · rw [hr]
      exact hregistered.consistent hc (Registration.isMade hr)
    · rw [hr]
      exact hcalls.trans (List.append_nil _).symm
    · rw [he]
      rfl

theorem succeeds_of_register {r : Registration}
    {calls : List (Call StorageUnit) × List (Call StorageEngine)}
    (h : c.register r = .ok (c', calls)) : c.Succeeds r c' calls := by
  cases r with
  | engine e =>
    rw [register] at h
    cases hadd : c.addEngine e with
    | error f =>
      rw [hadd] at h
      cases h
    | ok added =>
      rw [hadd] at h
      rcases Prod.mk.inj (Except.ok.inj h) with ⟨rfl, rfl⟩
      rcases added_of_addEngine hadd with ⟨hcatalog, hcalls⟩
      refine ⟨fun admitted hc => ?_, rfl, hcalls.trans (List.append_nil _).symm⟩
      rw [hcatalog]
      exact (List.append_nil admitted).symm ▸
        hc.of_units rfl fun d hd => contains_insert_of_contains hd
  | master id e => exact succeeds_of_unit rfl rfl rfl h
  | replica id e m => exact succeeds_of_unit rfl rfl rfl h
  | unitHook hook =>
    rcases Prod.mk.inj (Except.ok.inj h) with ⟨rfl, rfl⟩
    refine ⟨fun admitted hc => ?_, rfl, rfl⟩
    exact (List.append_nil admitted).symm ▸ hc.of_units rfl fun _ => id
  | engineHook hook =>
    rcases Prod.mk.inj (Except.ok.inj h) with ⟨rfl, rfl⟩
    refine ⟨fun admitted hc => ?_, rfl, rfl⟩
    exact (List.append_nil admitted).symm ▸ hc.of_units rfl fun _ => id

end Catalog

namespace Registry

/-! ## Rows of registrations -/

/-- A registration in place leaves no trace if it fails, and does all it is to do if not. -/
theorem handle_cases (ρ : Registry) (r : Registration) :
    (∃ f, ρ.handle r = (.error f, ρ)) ∨ ∃ c calls, ρ.catalog.Succeeds r c calls ∧
      ρ.handle r = (.ok (), ⟨c, ρ.unitCalls ++ calls.1, ρ.engineCalls ++ calls.2⟩) := by
  rw [handle_eq]
  cases hregister : ρ.catalog.register r with
  | error f => exact .inl ⟨f, rfl⟩
  | ok result => exact .inr ⟨result.1, result.2, Catalog.succeeds_of_register hregister, rfl⟩

theorem consistent_handle {ρ : Registry} {admitted : List StorageUnit}
    (h : ρ.catalog.Consistent admitted) (r : Registration) :
    (ρ.handle r).2.catalog.Consistent
      (admitted ++ if (ρ.handle r).1.isOk then r.unit?.toList else []) := by
  rcases ρ.handle_cases r with ⟨f, hfailed⟩ | ⟨c, calls, hsucceeds, hdone⟩
  · rw [hfailed]
    exact (List.append_nil admitted).symm ▸ h
  · rw [hdone]
    exact hsucceeds.consistent admitted h

theorem consistent_after {ρ : Registry} {admitted : List StorageUnit}
    (h : ρ.catalog.Consistent admitted) (rs : List Registration) :
    (ρ.after rs).catalog.Consistent (admitted ++ ρ.admitted rs) := by
  induction rs generalizing ρ admitted with
  | nil => exact (List.append_nil admitted).symm ▸ h
  | cons r rest ih =>
    have hrest := ih (consistent_handle h r)
    rwa [List.append_assoc] at hrest

/-- The catalog of a new node after several registrations. -/
def reached (node : Nat) (rs : List Registration) : Catalog :=
  ((fresh node).after rs).catalog

theorem consistent_reached (node : Nat) (rs : List Registration) :
    (reached node rs).Consistent ((fresh node).admitted rs) :=
  consistent_after (ρ := fresh node) (Catalog.consistent_empty node) rs

/-- Whatever a new node is asked to register, in whatever order, and whatever of that fails: every
registered unit is on a registered engine, every registered replica names a registered master, and
the replicas of a registered master are the registered replicas that name it, in the order of their
registration and each of them once.  A registration that fails changes nothing and calls no hook,
and one that succeeds calls each hook of its kind once. -/
theorem groups_consistent (node : Nat) (rs : List Registration) :
    (∀ id u, (reached node rs).unit? id = some u →
      u.id = id ∧ KeyedList.contains u.engine (reached node rs).engines = true ∧
      (u.isMaster = false →
        ∃ m, (reached node rs).unit? u.masterId = some m ∧ m.isMaster = true) ∧
      (u.isMaster = true →
        u.replicas = ((fresh node).admitted rs).filter (follows id) ∧
        (∀ r, r ∈ u.replicas ↔
          (reached node rs).unit? r.id = some r ∧ r.isMaster = false ∧ r.masterId = id) ∧
        u.groupIds = id :: u.replicas.map StorageUnit.id ∧ u.groupIds.Nodup ∧
        ∀ v ∈ u.groupIds, ((reached node rs).unit? v).isSome = true)) ∧
    (∀ id, ((reached node rs).unit? id).isSome = true ↔
      id ∈ ((fresh node).admitted rs).map StorageUnit.id) ∧
    ∀ (ρ : Registry) (r : Registration),
      (ρ.handle r = match ρ.catalog.register r with
        | .ok (c, calls) => (.ok (), ⟨c, ρ.unitCalls ++ calls.1, ρ.engineCalls ++ calls.2⟩)
        | .error f => (.error f, ρ)) ∧
      (∀ f, (ρ.handle r).1 = .error f → (ρ.handle r).2 = ρ) ∧
      ((ρ.handle r).1 = .ok () →
        (ρ.handle r).2.unitCalls = ρ.unitCalls ++ r.unit?.toList.flatMap (fun u =>
          ρ.catalog.unitHooks.map fun hook => ⟨hook, none, some u⟩) ∧
        (ρ.handle r).2.engineCalls = ρ.engineCalls ++ r.engine?.toList.flatMap (fun e =>
          ρ.catalog.engineHooks.map fun hook => ⟨hook, none, some e⟩)) := by
  have hc := consistent_reached node rs
  refine ⟨?_, hc.known, ?_⟩
  · intro id u hu
    refine ⟨hc.named id u hu, hc.homed id u hu, fun hreplica => (hc.led id u hu hreplica).2, ?_⟩
    exact fun hmaster => ⟨(hc.lists id u hu hmaster).2, fun _ => hc.mem_replicas_iff hu hmaster,
      hc.groupIds_eq hu hmaster, hc.nodup_groupIds hu hmaster,
      fun _ => hc.isSome_of_mem_groupIds hu hmaster⟩
  · intro ρ r
    -- A registration builds a new catalog or fails before it is stored.
    refine ⟨ρ.handle_eq r, ?_⟩
    rcases ρ.handle_cases r with ⟨f, hfailed⟩ | ⟨c, calls, hsucceeds, hdone⟩
    · rw [hfailed]
      exact ⟨fun _ _ => rfl, (nomatch ·)⟩
    · rw [hdone]
      refine ⟨fun _ h => (nomatch h), fun _ => ⟨?_, ?_⟩⟩
      · exact congrArg (ρ.unitCalls ++ ·) hsucceeds.unitCalls
      · exact congrArg (ρ.engineCalls ++ ·) hsucceeds.engineCalls

example : ((reached 1 [.master "unit0" 1, .engine (.plain 1 "memory"), .engine (.plain 2 "memory"),
    .engine (.plain 2 "memory"), .master "unit0" 1, .replica "unit1" 2 "unit0",
    .replica "unit2" 2 "missing"]).unit? "unit0").map StorageUnit.groupIds =
      some ["unit0", "unit1"] := by
  decide

end Registry
end SeriesExec
