import SeriesExec.Proofs.Settled

/-!
# Traffic steps — what an event does to the order of deliveries

A transfer says where deliveries go, but not in which order they wait.  This file has the small
changes of the traffic that keep the order in view, so that a property of the traffic has to be
looked at for one small change only.  It defines:

* `Traffic.unit?` — the unit of a name, among those that are known;
* `Traffic.Shift` — a small change, with the deliveries that come in;
* `Traffic.Course` — a row of such changes;
* `Traffic.Everywhere` — what holds of all deliveries, place by place.

Main statements: on a course units keep their engines, and engines what they are
(`Course.engineOf?_some`, `Course.engine?_some`); what is over stays (`Course.finished_prefix`); and
whatever there is was there before, or has come in (`Course.mem_deliveries`).
-/

namespace SeriesExec

/-- A run without the mark that it waits. -/
def Run.core (r : Run) : Delivery × EngineId × Outcome :=
  (r.delivery, r.engine, r.outcome)

namespace Traffic

variable {τ τ' τ'' : Traffic} {u v : UnitId} {e : EngineId}

/-- The unit of that name, if it is known. -/
def unit? (τ : Traffic) (u : UnitId) : Option UnitLoop :=
  τ.units.find? fun l => l.id == u

theorem engineOf?_eq (τ : Traffic) (u : UnitId) :
    τ.engineOf? u = (τ.unit? u).map UnitLoop.engine := rfl

theorem id_of_unit? {l : UnitLoop} (h : τ.unit? u = some l) : l.id = u := by
  have hid := List.find?_some h
  exact eq_of_beq hid

theorem unit?_mapUnit (τ : Traffic) (u : UnitId) {f : UnitLoop → UnitLoop}
    (hid : ∀ l, (f l).id = l.id) (v : UnitId) :
    (τ.mapUnit u f).unit? v = if v = u then (τ.unit? v).map f else τ.unit? v := by
  -- The change keeps names, so the search stops at the same unit.
  have hcomp : ((fun l : UnitLoop => l.id == v) ∘ fun l => if l.id = u then f l else l) =
      fun l => l.id == v := by
    funext l
    by_cases h : l.id = u <;> simp [h, hid]
  rw [unit?, mapUnit, List.find?_map, hcomp]
  change (τ.unit? v).map _ = _
  cases hl : τ.unit? v with
  | none => simp
  | some l =>
    have hv : l.id = v := id_of_unit? hl
    subst hv
    split <;> rename_i hu <;> simp [hu]

/-- Two changes of one unit that do not get in each other's way may change places. -/
theorem mapUnit_comm (τ : Traffic) (u : UnitId) {f g : UnitLoop → UnitLoop}
    (hf : ∀ l, (f l).id = l.id) (hg : ∀ l, (g l).id = l.id) (hcomm : ∀ l, g (f l) = f (g l)) :
    (τ.mapUnit u f).mapUnit u g = (τ.mapUnit u g).mapUnit u f := by
  simp only [mapUnit, List.map_map]
  congr 1
  refine List.map_congr_left ?_
  intro l _
  by_cases h : l.id = u <;> simp [h, hf, hg, hcomm]

theorem engine?_putEngine (τ : Traffic) (s : EngineSite) (e : EngineId) :
    (τ.putEngine s).engine? e = if e = s.id then some s else τ.engine? e :=
  KeyedList.find?_insert s.id e s τ.engines

theorem mem_units_of_unit? {l : UnitLoop} (h : τ.unit? u = some l) : l ∈ τ.units :=
  List.mem_of_find?_eq_some h

/-! ## Small changes -/

/-- A small change of the traffic; the list has the delivery that comes in, if one does.  A driver
is called only if `calls` allows it. -/
inductive Shift (calls : Prop) (τ : Traffic) : List Delivery → Traffic → Prop where
  /-- A delivery comes to the queue of its unit. -/
  | enqueue (d : Delivery) (hknown : (τ.unit? d.unit).isSome) (hid : d.id = τ.accepted) :
      Shift calls τ [d]
        { τ.mapUnit d.unit (fun l => { l with queue := l.queue.push d }) with
          accepted := τ.accepted + 1 }
  /-- A unit becomes known. -/
  | learn (l : UnitLoop) (hnew : τ.unit? l.id = none) (hqueue : l.queue.items = [])
      (hphase : l.phase = .seeking) (hopen : τ.isClosed = false) :
      Shift calls τ [] { τ with units := τ.units ++ [l] }
  /-- An engine becomes ready; if it is a store, that is empty. -/
  | offer (s : EngineSite) (hnew : τ.engine? s.id = none) (hwaiting : s.waiting.items = [])
      (hdriver : ∀ st, s.driver = .store st → st = Store.empty) : Shift calls τ [] (τ.putEngine s)
  /-- Calls that wait are let through. -/
  | permit (running : List Run) (hcore : running.map Run.core = τ.running.map Run.core)
      (hheld : ∀ r ∈ running, r.isHeld = true → r ∈ τ.running) :
      Shift calls τ [] { τ with running := running }
  /-- The loops are turned off. -/
  | close : Shift calls τ [] { τ with isClosed := true }
  /-- A loop gets on with the search for its engine. -/
  | turn (l : UnitLoop) (phase : LoopPhase) (hl : τ.unit? l.id = some l)
      (hready : phase = .serving → (τ.engine? l.engine).isSome) (hopen : τ.isClosed = false) :
      Shift calls τ [] (τ.mapUnit l.id fun l => { l with phase := phase })
  /-- A loop refuses the first delivery of its queue. -/
  | refuse (l : UnitLoop) (d : Delivery) (rest : List Delivery) (fate : Fate) (err : Error)
      (hl : τ.unit? l.id = some l) (hitems : l.queue.items = d :: rest)
      (hfate : fate = .notReady ∧ err.kind = .engineNotReady ∨
        fate = .overloaded ∧ err.kind = .tooManyTasks)
      (hopen : τ.isClosed = false) :
      Shift calls τ []
        { τ.mapUnit l.id (fun l => { l with queue := ⟨rest⟩ }) with
          finished := τ.finished ++ [⟨d, fate, .error err⟩] }
  /-- A loop hands the first delivery of its queue to the workers of its engine. -/
  | submit (l : UnitLoop) (d : Delivery) (rest : List Delivery) (s : EngineSite)
      (hl : τ.unit? l.id = some l) (hitems : l.queue.items = d :: rest)
      (hs : τ.engine? l.engine = some s) (hroom : s.waiting.size ≤ τ.config.maxWaiting)
      (hopen : τ.isClosed = false) :
      Shift calls τ []
        ((τ.mapUnit l.id fun l => { l with queue := ⟨rest⟩ }).putEngine
          { s with waiting := s.waiting.push d })
  /-- A worker takes the first delivery that waits for it and calls the driver. -/
  | start (hcalls : calls) (s : EngineSite) (d : Delivery) (rest : List Delivery)
      (driver : Driver) (outcome : Outcome) (isHeld : Bool) (hs : τ.engine? s.id = some s)
      (hitems : s.waiting.items = d :: rest) :
      Shift calls τ []
        { τ.putEngine { s with waiting := ⟨rest⟩, driver := driver } with
          running := τ.running ++ [⟨d, s.id, outcome, isHeld⟩] }
  /-- A driver is called past all queues. -/
  | drive (hcalls : calls) (s : EngineSite) (driver : Driver) (hs : τ.engine? s.id = some s) :
      Shift calls τ [] (τ.putEngine { s with driver := driver })
  /-- A worker ends its delivery. -/
  | finish (r : Run) (hr : r ∈ τ.running)
      (halone : ∀ q ∈ τ.running, q.delivery.id = r.delivery.id → q = r) :
      Shift calls τ []
        { τ with
          running := τ.running.filter fun q => q.delivery.id != r.delivery.id
          finished := τ.finished ++ [⟨r.delivery, .executed, r.outcome.result⟩] }

/-- A row of small changes of an orderly traffic, with all deliveries that come in. -/
inductive Course (calls : Prop) : Traffic → List Delivery → Traffic → Prop where
  | nil (τ : Traffic) : Course calls τ [] τ
  | cons {τ τ' τ'' : Traffic} {new new' : List Delivery} (horderly : τ.Orderly)
      (hshift : Shift calls τ new τ') (hrest : Course calls τ' new' τ'') :
      Course calls τ (new ++ new') τ''

variable {calls : Prop} {new new' : List Delivery}

theorem Course.of_eq (h : τ' = τ) : Course calls τ [] τ' := by
  subst h
  exact .nil τ'

theorem Course.single (horderly : τ.Orderly) (h : Shift calls τ new τ') :
    Course calls τ new τ' := by
  have hcourse := Course.cons horderly h (.nil τ')
  rwa [List.append_nil] at hcourse

theorem Course.trans (h : Course calls τ new τ') (h' : Course calls τ' new' τ'') :
    Course calls τ (new ++ new') τ'' := by
  induction h with
  | nil τ => exact h'
  | cons horderly hshift _ ih =>
    rw [List.append_assoc]
    exact .cons horderly hshift (ih h')

/-- What every small change keeps, a course keeps. -/
theorem Course.keeps {P : Traffic → Prop}
    (hkeeps : ∀ {τ τ' new}, τ.Orderly → Shift calls τ new τ' → P τ → P τ')
    (h : Course calls τ new τ') (hstart : P τ) : P τ' := by
  induction h with
  | nil τ => exact hstart
  | cons horderly hshift _ ih => exact ih (hkeeps horderly hshift hstart)

/-! ## Units and engines -/

/-- A unit that is known keeps all but its queue and its phase. -/
theorem Shift.facet_some {α : Type} {g : UnitLoop → α} {a : α}
    (hg : ∀ (l : UnitLoop) queue phase, g { l with queue := queue, phase := phase } = g l)
    (h : Shift calls τ new τ') (hu : (τ.unit? u).map g = some a) :
    (τ'.unit? u).map g = some a := by
  have hmap : ∀ {w : UnitId} {f : UnitLoop → UnitLoop}, (∀ l, (f l).id = l.id) →
      (∀ l, g (f l) = g l) → ((τ.mapUnit w f).unit? u).map g = some a := by
    intro w f hid hf
    rw [unit?_mapUnit τ w hid, ← hu]
    split
    · rw [Option.map_map]
      exact congrArg (Option.map · (τ.unit? u)) (funext hf)
    · rfl
  cases h with
  | learn l hnew _ _ =>
    -- The new unit comes last, so whoever was found before is found still.
    rcases Option.map_eq_some_iff.mp hu with ⟨m, hm, rfl⟩
    rw [unit?] at hm
    simp [unit?, List.find?_append, hm]
  | enqueue d _ _ => exact hmap (w := d.unit) (fun _ => rfl) fun l => hg l _ l.phase
  | turn l _ _ _ => exact hmap (w := l.id) (fun _ => rfl) fun m => hg m m.queue _
  | refuse l _ _ _ _ _ _ _ => exact hmap (w := l.id) (fun _ => rfl) fun m => hg m _ m.phase
  | submit l _ _ _ _ _ _ _ => exact hmap (w := l.id) (fun _ => rfl) fun m => hg m _ m.phase
  | _ => exact hu

/-- A unit that is known keeps its engine. -/
theorem Shift.engineOf?_some (h : Shift calls τ new τ') (hu : τ.engineOf? u = some e) :
    τ'.engineOf? u = some e :=
  h.facet_some (g := UnitLoop.engine) (fun _ _ _ => rfl) hu

/-- An engine that is ready keeps its workers, and its driver unless that is called. -/
structure SameSite (calls : Prop) (s s' : EngineSite) : Prop where
  workers : s'.workers = s.workers
  driver : ¬calls → s'.driver = s.driver

theorem SameSite.refl (s : EngineSite) : SameSite calls s s := ⟨rfl, fun _ => rfl⟩

theorem SameSite.trans {s₁ s₂ s₃ : EngineSite} (h : SameSite calls s₁ s₂)
    (h' : SameSite calls s₂ s₃) : SameSite calls s₁ s₃ :=
  ⟨h'.workers.trans h.workers, fun hcalls => (h'.driver hcalls).trans (h.driver hcalls)⟩

/-- An engine that is put in anew, in place of what was there. -/
theorem engine?_put {s s₀ s' : EngineSite} (hs₀ : τ.engine? s'.id = some s₀)
    (hsame : SameSite calls s₀ s') (hs : τ.engine? e = some s) :
    ∃ s₁, (τ.putEngine s').engine? e = some s₁ ∧ SameSite calls s s₁ := by
  rw [engine?_putEngine]
  split
  · rename_i hid
    subst hid
    rcases Option.some.inj (hs₀.symm.trans hs) with rfl
    exact ⟨s', rfl, hsame⟩
  · exact ⟨s, hs, .refl s⟩

theorem Shift.engine?_some (horderly : τ.Orderly) (h : Shift calls τ new τ') {s : EngineSite}
    (hs : τ.engine? e = some s) : ∃ s', τ'.engine? e = some s' ∧ SameSite calls s s' := by
  cases h with
  | offer s₀ hnew _ _ =>
    have hne : e ≠ s₀.id := by
      rintro rfl
      rw [hs] at hnew
      cases hnew
    exact ⟨s, (engine?_putEngine τ s₀ e).trans ((if_neg hne).trans hs), .refl s⟩
  | submit l d rest s₀ hl hitems hs₀ hroom =>
    have hid : s₀.id = l.engine := horderly.id_of_engine? hs₀
    exact engine?_put (hid ▸ hs₀ : τ.engine? s₀.id = some s₀) ⟨rfl, fun _ => rfl⟩ hs
  | start hcalls s₀ d rest driver outcome isHeld hs₀ hitems =>
    exact engine?_put hs₀ ⟨rfl, fun hnot => absurd hcalls hnot⟩ hs
  | drive hcalls s₀ driver hs₀ =>
    exact engine?_put hs₀ ⟨rfl, fun hnot => absurd hcalls hnot⟩ hs
  | _ => exact ⟨s, hs, .refl s⟩

/-- An engine that was not ready starts with nothing, and a store without batches. -/
theorem Shift.engine?_none (horderly : τ.Orderly) (h : Shift calls τ new τ')
    (hnone : τ.engine? e = none) {s : EngineSite} (hs : τ'.engine? e = some s) :
    s.waiting.items = [] ∧ ∀ st, s.driver = .store st → st = Store.empty := by
  -- An engine that is put in anew was ready before.
  have hput : ∀ {s₀ s' : EngineSite} {τ₁ : Traffic}, τ₁.engine? e = none →
      τ₁.engine? s'.id = some s₀ → (τ₁.putEngine s').engine? e ≠ some s := by
    intro s₀ s' τ₁ hnone hs₀ hs
    rw [engine?_putEngine] at hs
    split at hs
    · rename_i hid
      rw [← hid, hnone] at hs₀
      cases hs₀
    · rw [hnone] at hs
      cases hs
  cases h with
  | offer s₀ hnew hwaiting hdriver =>
    rw [engine?_putEngine] at hs
    split at hs
    · rcases Option.some.inj hs with rfl
      exact ⟨hwaiting, hdriver⟩
    · rw [hnone] at hs
      cases hs
  | submit l d rest s₀ hl hitems hs₀ hroom =>
    have hid : s₀.id = l.engine := horderly.id_of_engine? hs₀
    exact absurd hs (hput hnone (hid ▸ hs₀ : τ.engine? s₀.id = some s₀))
  | start hcalls s₀ d rest driver outcome isHeld hs₀ hitems =>
    exact absurd hs (hput hnone hs₀)
  | drive hcalls s₀ driver hs₀ => exact absurd hs (hput hnone hs₀)
  | _ =>
    have hsome : τ.engine? e = some s := hs
    rw [hnone] at hsome
    cases hsome

theorem Course.facet_some {α : Type} {g : UnitLoop → α} {a : α}
    (hg : ∀ (l : UnitLoop) queue phase, g { l with queue := queue, phase := phase } = g l)
    (h : Course calls τ new τ') (hu : (τ.unit? u).map g = some a) :
    (τ'.unit? u).map g = some a :=
  h.keeps (P := fun τ => (τ.unit? u).map g = some a) (fun _ hshift => hshift.facet_some hg) hu

theorem Course.engineOf?_some (h : Course calls τ new τ') (hu : τ.engineOf? u = some e) :
    τ'.engineOf? u = some e :=
  h.facet_some (g := UnitLoop.engine) (fun _ _ _ => rfl) hu

theorem Course.engine?_some (h : Course calls τ new τ') {s : EngineSite}
    (hs : τ.engine? e = some s) : ∃ s', τ'.engine? e = some s' ∧ SameSite calls s s' :=
  h.keeps (P := fun τ => ∃ s', τ.engine? e = some s' ∧ SameSite calls s s')
    (fun horderly hshift ⟨_, hs₁, hsame⟩ =>
      let ⟨s₂, hs₂, hsame₂⟩ := hshift.engine?_some horderly hs₁
      ⟨s₂, hs₂, hsame.trans hsame₂⟩) ⟨s, hs, .refl s⟩

/-! ## The past -/

/-- What is over stays, and what ends comes after it. -/
theorem Shift.finished_prefix (h : Shift calls τ new τ') : τ.finished <+: τ'.finished := by
  cases h with
  | refuse _ _ _ _ _ _ _ _ => exact List.prefix_append _ _
  | finish _ _ _ => exact List.prefix_append _ _
  | _ => exact List.prefix_refl _

theorem Course.finished_prefix (h : Course calls τ new τ') : τ.finished <+: τ'.finished :=
  h.keeps (P := fun τ' => τ.finished <+: τ'.finished)
    (fun _ hshift hprefix => hprefix.trans hshift.finished_prefix) (List.prefix_refl _)

/-! ## All deliveries -/

/-- What holds of the deliveries, place by place. -/
structure Everywhere (τ : Traffic) (P : Delivery → Prop) : Prop where
  queued : ∀ l ∈ τ.units, ∀ d ∈ l.queue.items, P d
  waiting : ∀ e ∈ τ.engines, ∀ d ∈ e.2.waiting.items, P d
  running : ∀ r ∈ τ.running, P r.delivery
  finished : ∀ e ∈ τ.finished, P e.delivery

theorem everywhere_iff {P : Delivery → Prop} : τ.Everywhere P ↔ ∀ d ∈ τ.deliveries, P d := by
  simp only [deliveries, queued, pooled, underway, past, List.mem_append, List.mem_flatMap,
    List.mem_map]
  constructor
  · rintro h d (((⟨l, hl, hd⟩ | ⟨e, he, hd⟩) | ⟨r, hr, rfl⟩) | ⟨e, he, rfl⟩)
    · exact h.queued l hl d hd
    · exact h.waiting e he d hd
    · exact h.running r hr
    · exact h.finished e he
  · intro h
    exact ⟨fun l hl d hd => h d (.inl (.inl (.inl ⟨l, hl, hd⟩))),
      fun e he d hd => h d (.inl (.inl (.inr ⟨e, he, hd⟩))),
      fun r hr => h _ (.inl (.inr ⟨r, hr, rfl⟩)), fun e he => h _ (.inr ⟨e, he, rfl⟩)⟩

section Everywhere

variable {P : Delivery → Prop} (h : τ.Everywhere P)

include h

theorem Everywhere.mapUnit {w : UnitId} {f : UnitLoop → UnitLoop}
    (hf : ∀ l ∈ τ.units, ∀ d ∈ (f l).queue.items, P d) : (τ.mapUnit w f).Everywhere P where
  queued := by
    intro l' hl' d hd
    obtain ⟨l, hl, rfl⟩ := List.mem_map.mp hl'
    split at hd
    · exact hf l hl d hd
    · exact h.queued l hl d hd
  waiting := h.waiting
  running := h.running
  finished := h.finished

theorem Everywhere.putEngine (horderly : τ.Orderly) {s : EngineSite}
    (hs : ∀ d ∈ s.waiting.items, P d) : (τ.putEngine s).Everywhere P where
  queued := h.queued
  waiting := by
    intro e he d hd
    rcases mem_putEngine horderly.enginesSorted he with rfl | he
    · exact hs d hd
    · exact h.waiting e he d hd
  running := h.running
  finished := h.finished

theorem Everywhere.queue {l : UnitLoop} {d : Delivery} {rest : List Delivery}
    (hl : τ.unit? l.id = some l) (hitems : l.queue.items = d :: rest) :
    P d ∧ ∀ d' ∈ rest, P d' :=
  List.forall_mem_cons.mp (hitems ▸ h.queued l (mem_units_of_unit? hl))

theorem Everywhere.pool {s : EngineSite} (hs : τ.engine? e = some s) :
    ∀ d ∈ s.waiting.items, P d :=
  h.waiting (e, s) (KeyedList.mem_of_find? hs)

theorem Everywhere.append_running {r : Run} (hr : P r.delivery) :
    ∀ q ∈ τ.running ++ [r], P q.delivery :=
  List.forall_mem_append.mpr ⟨h.running, List.forall_mem_singleton.mpr hr⟩

theorem Everywhere.append_finished {e : Ending} (he : P e.delivery) :
    ∀ e' ∈ τ.finished ++ [e], P e'.delivery :=
  List.forall_mem_append.mpr ⟨h.finished, List.forall_mem_singleton.mpr he⟩

end Everywhere

/-- Whatever there is was there, or has come in. -/
theorem Shift.everywhere {P : Delivery → Prop} (horderly : τ.Orderly)
    (hshift : Shift calls τ new τ') (h : τ.Everywhere P) (hnew : ∀ d ∈ new, P d) :
    τ'.Everywhere P := by
  cases hshift with
  | enqueue d _ _ =>
    have hunit := h.mapUnit (w := d.unit) (f := fun l => { l with queue := l.queue.push d })
      fun l hl => List.forall_mem_append.mpr ⟨h.queued l hl, hnew⟩
    exact ⟨hunit.queued, hunit.waiting, hunit.running, hunit.finished⟩
  | learn l _ hqueue _ =>
    refine ⟨List.forall_mem_append.mpr ⟨h.queued, ?_⟩, h.waiting, h.running, h.finished⟩
    simp [hqueue]
  | offer s _ hwaiting _ => exact h.putEngine horderly (by simp [hwaiting])
  | permit running hcore _ =>
    refine ⟨h.queued, h.waiting, ?_, h.finished⟩
    intro r hr
    -- A run that is let through is the run that it was.
    have hmem := List.mem_map_of_mem (f := Run.core) hr
    rw [hcore] at hmem
    obtain ⟨q, hq, hsame⟩ := List.mem_map.mp hmem
    have hdelivery : q.delivery = r.delivery := congrArg Prod.fst hsame
    exact hdelivery ▸ h.running q hq
  | close => exact ⟨h.queued, h.waiting, h.running, h.finished⟩
  | turn l phase _ _ => exact h.mapUnit (f := fun l => { l with phase := phase }) h.queued
  | refuse l d rest fate err hl hitems _ =>
    obtain ⟨hd, hrest⟩ := h.queue hl hitems
    have hunit := h.mapUnit (w := l.id) (f := fun l => { l with queue := ⟨rest⟩ }) fun _ _ => hrest
    exact ⟨hunit.queued, hunit.waiting, hunit.running, h.append_finished hd⟩
  | submit l d rest s hl hitems hs _ =>
    obtain ⟨hd, hrest⟩ := h.queue hl hitems
    have hunit := h.mapUnit (w := l.id) (f := fun l => { l with queue := ⟨rest⟩ }) fun _ _ => hrest
    have hwaiting : ∀ d' ∈ s.waiting.items ++ [d], P d' :=
      List.forall_mem_append.mpr ⟨h.pool hs, List.forall_mem_singleton.mpr hd⟩
    refine ⟨hunit.queued, ?_, h.running, h.finished⟩
    exact (h.putEngine (s := { s with waiting := s.waiting.push d }) horderly hwaiting).waiting
  | start _ s d rest driver outcome isHeld hs hitems =>
    obtain ⟨hd, hrest⟩ := List.forall_mem_cons.mp (hitems ▸ h.pool hs)
    have hengine := h.putEngine (s := { s with waiting := ⟨rest⟩, driver := driver }) horderly hrest
    exact ⟨hengine.queued, hengine.waiting, h.append_running hd, hengine.finished⟩
  | drive _ s driver hs =>
    have hwaiting : ∀ d ∈ s.waiting.items, P d := h.pool hs
    exact h.putEngine (s := { s with driver := driver }) horderly hwaiting
  | finish r hr _ =>
    exact ⟨h.queued, h.waiting, fun q hq => h.running q (List.mem_of_mem_filter hq),
      h.append_finished (h.running r hr)⟩

theorem Course.everywhere {P : Delivery → Prop} (h : Course calls τ new τ') (hold : τ.Everywhere P)
    (hnew : ∀ d ∈ new, P d) : τ'.Everywhere P := by
  induction h with
  | nil τ => exact hold
  | cons horderly hshift _ ih =>
    obtain ⟨hfirst, hrest⟩ := List.forall_mem_append.mp hnew
    exact ih (hshift.everywhere horderly hold hfirst) hrest

theorem Course.mem_deliveries (h : Course calls τ new τ') {d : Delivery}
    (hd : d ∈ τ'.deliveries) : d ∈ τ.deliveries ∨ d ∈ new := by
  have hold : τ.Everywhere fun d => d ∈ τ.deliveries ∨ d ∈ new :=
    everywhere_iff.mpr fun _ hd => .inl hd
  exact everywhere_iff.mp (h.everywhere hold fun _ hd => .inr hd) d hd

end Traffic
end SeriesExec
