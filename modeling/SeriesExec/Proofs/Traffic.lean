import Mathlib.Data.List.Nodup
import SeriesExec.Proofs.Views

/-!
# Traffic — the places of the deliveries

A delivery waits in the queue of its unit, waits for a worker of its engine, is with a worker, or is
over.  This file defines:

* `Traffic.queued`, `Traffic.pooled`, `Traffic.underway`, `Traffic.past` — the deliveries in each of
  the four places, `Traffic.handed`, those in the last three, and `Traffic.deliveries`, all of them;
* `Traffic.Orderly` — every delivery is with its own unit and its own engine, and no engine has more
  busy workers than it has workers.

Main statements: the traffic stays orderly when a unit, an engine or the workers change in the ways
in which a cluster changes them (`Orderly.mapUnit`, `Orderly.putEngine`, `Orderly.setRunning`), and
such a change moves deliveries in one place only (`exists_queued_perm`, `exists_pooled_perm`).
-/

namespace SeriesExec
namespace Traffic

/-- The deliveries in the queues of units. -/
def queued (τ : Traffic) : List Delivery :=
  τ.units.flatMap fun l => l.queue.items

/-- The deliveries that wait for a worker. -/
def pooled (τ : Traffic) : List Delivery :=
  τ.engines.flatMap fun e => e.2.waiting.items

/-- The deliveries that workers are busy with. -/
def underway (τ : Traffic) : List Delivery :=
  τ.running.map Run.delivery

/-- The deliveries that have ended. -/
def past (τ : Traffic) : List Delivery :=
  τ.finished.map Ending.delivery

/-- All deliveries, place by place. -/
def deliveries (τ : Traffic) : List Delivery :=
  τ.queued ++ τ.pooled ++ τ.underway ++ τ.past

/-- The deliveries that have left the queue of their unit. -/
def handed (τ : Traffic) : List Delivery :=
  τ.pooled ++ (τ.underway ++ τ.past)

theorem mem_handed {τ : Traffic} {d : Delivery} :
    d ∈ τ.handed ↔ d ∈ τ.pooled ∨ d ∈ τ.underway ∨ d ∈ τ.past := by
  rw [handed, List.mem_append, List.mem_append]

theorem mem_deliveries {τ : Traffic} {d : Delivery} :
    d ∈ τ.deliveries ↔ d ∈ τ.queued ∨ d ∈ τ.handed := by
  rw [deliveries, List.append_assoc, List.append_assoc, List.mem_append, handed]

/-- The engine of a unit. -/
def engineOf? (τ : Traffic) (u : UnitId) : Option EngineId :=
  (τ.units.find? fun l => l.id == u).map UnitLoop.engine

/-- How many workers of an engine are busy. -/
def busy (τ : Traffic) (e : EngineId) : Nat :=
  τ.running.countP fun r => r.engine == e

/-- Every delivery is where its unit sends it, and no engine is busier than its workers allow. -/
structure Orderly (τ : Traffic) : Prop where
  unitsNodup : (τ.units.map UnitLoop.id).Nodup
  enginesSorted : KeyedList.Sorted τ.engines
  engineNamed : ∀ e ∈ τ.engines, e.2.id = e.1
  staffed : ∀ e ∈ τ.engines, 0 < e.2.workers
  busyLe : ∀ e ∈ τ.engines, τ.busy e.1 ≤ e.2.workers
  queuedAt : ∀ l ∈ τ.units, ∀ d ∈ l.queue.items, d.unit = l.id
  pooledAt : ∀ e ∈ τ.engines, ∀ d ∈ e.2.waiting.items, τ.engineOf? d.unit = some e.1
  runningAt : ∀ r ∈ τ.running, τ.engineOf? r.delivery.unit = some r.engine
  runningEngine : ∀ r ∈ τ.running, ∃ s, (r.engine, s) ∈ τ.engines

variable {τ τ' : Traffic}

/-- Whether the traffic is orderly does not depend on what is over. -/
theorem Orderly.of_eq (h : τ.Orderly) (hunits : τ'.units = τ.units)
    (hengines : τ'.engines = τ.engines) (hrunning : τ'.running = τ.running) : τ'.Orderly := by
  rcases τ' with ⟨units, engines, running, finished, accepted, config, isClosed, memoryWorkers⟩
  dsimp only at hunits hengines hrunning
  subst hunits hengines hrunning
  exact ⟨h.unitsNodup, h.enginesSorted, h.engineNamed, h.staffed, h.busyLe, h.queuedAt, h.pooledAt,
    h.runningAt, h.runningEngine⟩

/-! ## Changing one unit -/

/-- The traffic with one unit changed. -/
def mapUnit (τ : Traffic) (u : UnitId) (f : UnitLoop → UnitLoop) : Traffic :=
  { τ with units := τ.units.map fun l => if l.id = u then f l else l }

theorem engineOf?_mapUnit (τ : Traffic) (u : UnitId) {f : UnitLoop → UnitLoop}
    (hid : ∀ l, (f l).id = l.id) (hengine : ∀ l, (f l).engine = l.engine) (v : UnitId) :
    (τ.mapUnit u f).engineOf? v = τ.engineOf? v := by
  -- The change keeps numbers, so the search stops at the same unit.
  have hcomp : ((fun l : UnitLoop => l.id == v) ∘ fun l => if l.id = u then f l else l) =
      fun l => l.id == v := by
    funext l
    by_cases h : l.id = u <;> simp [h, hid]
  rw [engineOf?, mapUnit, List.find?_map, hcomp, Option.map_map, engineOf?]
  congr 1
  funext l
  by_cases h : l.id = u <;> simp [h, hengine]

theorem Orderly.mapUnit (h : τ.Orderly) {u : UnitId} {f : UnitLoop → UnitLoop}
    (hid : ∀ l, (f l).id = l.id) (hengine : ∀ l, (f l).engine = l.engine)
    (hqueue : ∀ l ∈ τ.units, l.id = u → ∀ d ∈ (f l).queue.items, d.unit = u) :
    (τ.mapUnit u f).Orderly where
  unitsNodup := by
    have hids : (τ.mapUnit u f).units.map UnitLoop.id = τ.units.map UnitLoop.id := by
      rw [Traffic.mapUnit, List.map_map]
      refine List.map_congr_left ?_
      intro l _
      by_cases hl : l.id = u <;> simp [hl, hid]
    exact hids ▸ h.unitsNodup
  enginesSorted := h.enginesSorted
  engineNamed := h.engineNamed
  staffed := h.staffed
  busyLe := h.busyLe
  queuedAt := by
    intro l' hl' d hd
    rcases List.mem_map.mp hl' with ⟨l, hl, rfl⟩
    -- Only the queue of the changed unit may be new, and `hqueue` is about that.
    by_cases hu : l.id = u
    · simp only [hu, if_true] at hd ⊢
      rw [hid, hu]
      exact hqueue l hl hu d hd
    · simp only [hu, if_false] at hd ⊢
      exact h.queuedAt l hl d hd
  pooledAt e he d hd := (engineOf?_mapUnit τ u hid hengine d.unit).trans (h.pooledAt e he d hd)
  runningAt r hr := (engineOf?_mapUnit τ u hid hengine r.delivery.unit).trans (h.runningAt r hr)
  runningEngine := h.runningEngine

/-- An item among others whose keys are all different from its own. -/
theorem exists_split_of_nodup_map {α β : Type} {key : α → β} {as : List α} {a : α}
    (hnodup : (as.map key).Nodup) (ha : a ∈ as) :
    ∃ front back, as = front ++ a :: back ∧ ∀ b ∈ front ++ back, key b ≠ key a := by
  rcases List.append_of_mem ha with ⟨front, back, rfl⟩
  rw [List.map_append, List.map_cons, List.nodup_middle, List.nodup_cons, ← List.map_append]
    at hnodup
  exact ⟨front, back, rfl, fun b hb hkey => hnodup.1 (hkey ▸ List.mem_map_of_mem hb)⟩

theorem find?_of_nodup_map {α β : Type} [BEq β] [LawfulBEq β] {key : α → β} {as : List α} {a : α}
    (hnodup : (as.map key).Nodup) (ha : a ∈ as) : as.find? (fun b => key b == key a) = some a := by
  rcases exists_split_of_nodup_map hnodup ha with ⟨front, back, rfl, hothers⟩
  rw [List.find?_append, List.find?_eq_none.mpr, Option.none_or, List.find?_cons,
    beq_self_eq_true]
  intro b hb hkey
  exact hothers b (List.mem_append_left _ hb) (eq_of_beq hkey)

/-- The queue of a unit among all queues; changing the unit changes that part only. -/
theorem exists_queued_perm (hnodup : (τ.units.map UnitLoop.id).Nodup) {l : UnitLoop}
    (hl : l ∈ τ.units) :
    ∃ others, τ.queued.Perm (l.queue.items ++ others) ∧
      ∀ f, (τ.mapUnit l.id f).queued.Perm ((f l).queue.items ++ others) := by
  rcases exists_split_of_nodup_map hnodup hl with ⟨front, back, hunits, hothers⟩
  -- No other unit has that number, so the change does not touch the rest of the list.
  have hsame : ∀ f : UnitLoop → UnitLoop, ∀ ms : List UnitLoop, (∀ m ∈ ms, m ∈ front ++ back) →
      ms.map (fun m => if m.id = l.id then f m else m) = ms := by
    intro f ms hms
    rw [List.map_congr_left fun m hm => if_neg (hothers m (hms m hm)), List.map_id']
  refine ⟨front.flatMap (fun m => m.queue.items) ++ back.flatMap fun m => m.queue.items, ?_, ?_⟩
  · rw [queued, hunits, List.flatMap_append, List.flatMap_cons]
    exact List.perm_append_comm_assoc _ _ _
  · intro f
    rw [queued, Traffic.mapUnit, hunits, List.map_append, List.map_cons,
      hsame f front fun m hm => List.mem_append_left _ hm,
      hsame f back fun m hm => List.mem_append_right _ hm, if_pos rfl,
      List.flatMap_append, List.flatMap_cons]
    exact List.perm_append_comm_assoc _ _ _

/-! ## Changing one engine -/

/-- The traffic with an engine put in, in place of what was there under its number. -/
def putEngine (τ : Traffic) (s : EngineSite) : Traffic :=
  { τ with engines := KeyedList.insert s.id s τ.engines }

/-- The engine of that number, if it is ready. -/
def engine? (τ : Traffic) (e : EngineId) : Option EngineSite :=
  KeyedList.find? e τ.engines

theorem Orderly.id_of_engine? (h : τ.Orderly) {e : EngineId} {s : EngineSite}
    (hs : τ.engine? e = some s) : s.id = e :=
  h.engineNamed (e, s) (KeyedList.mem_of_find? hs)

theorem mem_putEngine (hs : KeyedList.Sorted τ.engines) {s : EngineSite}
    {e : EngineId × EngineSite} (he : e ∈ (τ.putEngine s).engines) :
    e = (s.id, s) ∨ e ∈ τ.engines := by
  have hsorted := KeyedList.sorted_update s.id (fun _ => s) hs
  -- Keys occur once, so being in the list and being found there are the same.
  have hfind : KeyedList.find? e.1 (KeyedList.insert s.id s τ.engines) = some e.2 :=
    KeyedList.find?_of_mem hsorted he
  rw [KeyedList.find?_insert] at hfind
  split at hfind
  · rename_i hid
    injection hfind with hfind
    exact .inl (Prod.ext hid hfind.symm)
  · exact .inr (KeyedList.mem_of_find? hfind)

theorem Orderly.putEngine (h : τ.Orderly) {s : EngineSite} (hworkers : 0 < s.workers)
    (hbusy : τ.busy s.id ≤ s.workers)
    (hwaiting : ∀ d ∈ s.waiting.items, τ.engineOf? d.unit = some s.id) :
    (τ.putEngine s).Orderly where
  unitsNodup := h.unitsNodup
  enginesSorted := KeyedList.sorted_update s.id _ h.enginesSorted
  engineNamed e he := by
    rcases mem_putEngine h.enginesSorted he with rfl | he
    · rfl
    · exact h.engineNamed e he
  staffed e he := by
    rcases mem_putEngine h.enginesSorted he with rfl | he
    · exact hworkers
    · exact h.staffed e he
  busyLe e he := by
    rcases mem_putEngine h.enginesSorted he with rfl | he
    · exact hbusy
    · exact h.busyLe e he
  queuedAt := h.queuedAt
  pooledAt e he := by
    rcases mem_putEngine h.enginesSorted he with rfl | he
    · exact hwaiting
    · exact h.pooledAt e he
  runningAt := h.runningAt
  runningEngine r hr := by
    rcases h.runningEngine r hr with ⟨s', hs'⟩
    -- The engine of a run is still there, be it the one that was put in.
    have hfind := KeyedList.find?_insert s.id r.engine s τ.engines
    rw [KeyedList.find?_of_mem h.enginesSorted hs'] at hfind
    split at hfind
    · exact ⟨s, KeyedList.mem_of_find? hfind⟩
    · exact ⟨s', KeyedList.mem_of_find? hfind⟩

/-- The deliveries that wait at an engine among all that wait; putting the engine in anew changes
that part only. -/
theorem exists_pooled_perm (h : τ.Orderly) {e : EngineId} {s : EngineSite}
    (hs : τ.engine? e = some s) :
    ∃ others, τ.pooled.Perm (s.waiting.items ++ others) ∧
      ∀ s', s'.id = e → (τ.putEngine s').pooled.Perm (s'.waiting.items ++ others) := by
  obtain ⟨front, back, hengines, hinsert⟩ :=
    KeyedList.exists_split_of_find?_eq_some h.enginesSorted hs
  refine ⟨front.flatMap (fun e => e.2.waiting.items) ++ back.flatMap fun e => e.2.waiting.items,
    ?_, ?_⟩
  · rw [pooled, hengines, List.flatMap_append, List.flatMap_cons]
    exact List.perm_append_comm_assoc _ _ _
  · rintro s' rfl
    rw [pooled, Traffic.putEngine, hinsert, List.flatMap_append, List.flatMap_cons]
    exact List.perm_append_comm_assoc _ _ _

/-- An engine that was not there adds what waits at it. -/
theorem pooled_putEngine_new {s : EngineSite} (hs : τ.engine? s.id = none) :
    (τ.putEngine s).pooled.Perm (s.waiting.items ++ τ.pooled) := by
  rcases KeyedList.exists_split_of_find?_eq_none hs with ⟨front, back, hengines, hinsert⟩
  rw [pooled, Traffic.putEngine, hinsert, pooled, hengines, List.flatMap_append,
    List.flatMap_append, List.flatMap_cons]
  exact List.perm_append_comm_assoc _ _ _

theorem mem_pooled {e : EngineId} {s : EngineSite} (hs : τ.engine? e = some s) {d : Delivery}
    (hd : d ∈ s.waiting.items) : d ∈ τ.pooled :=
  List.mem_flatMap.mpr ⟨(e, s), KeyedList.mem_of_find? hs, hd⟩

/-! ## Changing the workers -/

theorem Orderly.setRunning (h : τ.Orderly) {running : List Run}
    (hat : ∀ r ∈ running, τ.engineOf? r.delivery.unit = some r.engine ∧
      ∃ s, (r.engine, s) ∈ τ.engines)
    (hbusy : ∀ e ∈ τ.engines, (running.countP fun r => r.engine == e.1) ≤ e.2.workers) :
    ({ τ with running := running } : Traffic).Orderly where
  unitsNodup := h.unitsNodup
  enginesSorted := h.enginesSorted
  engineNamed := h.engineNamed
  staffed := h.staffed
  busyLe := hbusy
  queuedAt := h.queuedAt
  pooledAt := h.pooledAt
  runningAt r hr := (hat r hr).1
  runningEngine r hr := (hat r hr).2

/-- A run leaves the others behind; their deliveries are those without its own. -/
theorem underway_perm_of_mem (hnodup : (τ.underway.map Delivery.id).Nodup) {r : Run}
    (hr : r ∈ τ.running) :
    τ.underway.Perm (r.delivery ::
      (τ.running.filter fun q => q.delivery.id != r.delivery.id).map Run.delivery) := by
  rw [underway, List.map_map] at hnodup
  rcases exists_split_of_nodup_map hnodup hr with ⟨front, back, hrunning, hothers⟩
  -- Numbers occur once, so the filter takes away `r` and nothing before or after it.
  have hfilter : ∀ rs : List Run, (∀ q ∈ rs, q ∈ front ++ back) →
      rs.filter (fun q => q.delivery.id != r.delivery.id) = rs := by
    intro rs hrs
    refine List.filter_eq_self.mpr ?_
    intro q hq
    exact bne_iff_ne.mpr (hothers q (hrs q hq))
  rw [underway, hrunning, List.filter_append, List.filter_cons,
    hfilter front fun q hq => List.mem_append_left _ hq,
    hfilter back fun q hq => List.mem_append_right _ hq, if_neg (by simp), List.map_append,
    List.map_append, List.map_cons]
  exact List.perm_middle

/-! ## A new unit -/

theorem Orderly.addUnit (h : τ.Orderly) {l : UnitLoop} (hnew : l.id ∉ τ.units.map UnitLoop.id)
    (hempty : l.queue.items = []) :
    ({ τ with units := τ.units ++ [l] } : Traffic).Orderly := by
  -- The new unit comes last, so whoever was found before is found still.
  have hengine : ∀ v e, τ.engineOf? v = some e →
      ({ τ with units := τ.units ++ [l] } : Traffic).engineOf? v = some e := by
    intro v e hv
    rcases Option.map_eq_some_iff.mp hv with ⟨m, hm, rfl⟩
    simp [engineOf?, List.find?_append, hm]
  exact {
    unitsNodup := by
      rw [List.map_append, List.map_singleton]
      exact List.nodup_append.mpr ⟨h.unitsNodup, List.nodup_singleton _, fun a ha b hb hab =>
        hnew (by rw [← List.mem_singleton.mp hb, ← hab]; exact ha)⟩
    enginesSorted := h.enginesSorted
    engineNamed := h.engineNamed
    staffed := h.staffed
    busyLe := h.busyLe
    queuedAt := by
      intro m hm d hd
      rcases List.mem_append.mp hm with hm | hm
      · exact h.queuedAt m hm d hd
      · rw [List.mem_singleton.mp hm, hempty] at hd
        cases hd
    pooledAt := fun e he d hd => hengine _ _ (h.pooledAt e he d hd)
    runningAt := fun r hr => hengine _ _ (h.runningAt r hr)
    runningEngine := h.runningEngine }

end Traffic
end SeriesExec
