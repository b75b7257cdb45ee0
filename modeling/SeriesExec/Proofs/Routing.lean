import SeriesExec.Proofs.EventTraffic
import SeriesExec.Proofs.Groups

/-!
# Routing — where committed tasks go, and which engines are asked

Which unit a committed task goes to is up to the router of the cluster, which is given with the
setup.  Which engines are asked about their series is up to the catalog, where an engine that has
been registered stays.  Main statements: the router stays (`router_of_run?`), and unless it is one
that sends everything to the same unit, a write goes to the master of its group (`route_of_write`);
an engine is registered by the request for it and by nothing else (`signposts_after`), and the
registered engines ascend by number (`ordered_of_run?`).
-/

namespace SeriesExec
namespace Signposts

/-- The signposts with one more engine. -/
def add (p : Signposts) (e : StorageEngine) : Signposts :=
  { p with registered := KeyedList.insert e.id e p.registered }

/-- The registered engines ascend by number, so no two of them share one. -/
structure Ordered (p : Signposts) : Prop where
  sorted : KeyedList.Sorted p.registered
  keyed : ∀ e ∈ p.registered, e.1 = e.2.id

theorem Ordered.nil {router : Router} : Ordered ⟨router, []⟩ :=
  ⟨List.Pairwise.nil, fun _ h => nomatch h⟩

theorem Ordered.add {p : Signposts} (h : p.Ordered) (e : StorageEngine) : (p.add e).Ordered where
  sorted := KeyedList.sorted_update e.id _ h.sorted
  keyed := by
    intro a ha
    have hsorted : KeyedList.Sorted (KeyedList.insert e.id e p.registered) :=
      KeyedList.sorted_update e.id _ h.sorted
    have hfound := KeyedList.find?_of_mem hsorted ha
    rw [KeyedList.find?_insert] at hfound
    split at hfound
    · rename_i hid
      exact hid.trans (congrArg StorageEngine.id (Option.some.inj hfound))
    · exact h.keyed _ (KeyedList.mem_of_find? hfound)

end Signposts

/-! ## What changes the signposts -/

namespace Setting

def signposts (σ : Setting) : Signposts :=
  ⟨σ.router, σ.catalog.engines⟩

theorem signposts_learn (σ : Setting) (u : StorageUnit) :
    (σ.learn u).signposts = σ.signposts := by
  unfold learn
  split <;> rfl

theorem signposts_hear (σ : Setting) (call : Call StorageUnit) :
    (σ.hear call).signposts = σ.signposts := by
  unfold hear
  repeat' split
  all_goals first | rfl | exact signposts_learn σ _

/-- An engine is registered by the request for it and by nothing else. -/
theorem signposts_after (σ : Setting) (e : Cluster.Event) :
    (σ.after e).signposts = σ.signposts ∨
      ∃ s, e = .asked (.addEngine s) ∧ (σ.after e).signposts = σ.signposts.add s := by
  cases e with
  | moved s => exact .inl rfl
  | asked r =>
    cases r with
    | addEngine s =>
      unfold after ask
      dsimp only
      split
      · rename_i r hadd
        rw [(Catalog.added_of_addEngine hadd).1]
        exact .inr ⟨s, rfl, rfl⟩
      · exact .inl rfl
    | addUnit u =>
      unfold after ask
      dsimp only
      split
      · rename_i r hadd
        have hengines := (Catalog.registered_of_addUnit hadd).1.engines
        refine .inl ((Cluster.foldl_keeps signposts_hear r.2 _).trans ?_)
        rw [signposts, hengines]
        rfl
      · exact .inl rfl
    | notifyUnit before after => exact .inl (Cluster.foldl_keeps signposts_hear _ σ)
    | _ => exact .inl rfl

/-! ## In every history -/

/-- What signposts with one more engine have if they have it without, every row of events keeps. -/
theorem signposts_foldl_after {P : Signposts → Prop} (hadd : ∀ p e, P p → P (p.add e))
    (events : List Cluster.Event) {σ : Setting} (h : P σ.signposts) :
    P (events.foldl after σ).signposts := by
  induction events generalizing σ with
  | nil => exact h
  | cons e rest ih =>
    refine ih ?_
    rcases σ.signposts_after e with hsame | ⟨s, _, hmore⟩
    · exact hsame ▸ h
    · exact hmore ▸ hadd _ s h

end Setting

namespace Cluster

variable {c c' : Cluster}

/-- What holds of the signposts of a blank cluster, and of signposts with one more engine if it
holds of them without it, holds after every history. -/
theorem signposts_induction [PatternLibrary] {s : Setup} {P : Signposts → Prop}
    (hstart : P ⟨s.router, []⟩) (hadd : ∀ p e, P p → P (p.add e)) {events : List Event}
    (hrun : (build s).run? events = some c) : P c.signposts := by
  have hseeded : P (Setting.seeded s).signposts := by
    have hengines := Setting.signposts_foldl_after hadd
      ((s.engines.map Prod.fst).map fun e => .asked (.addEngine e)) (σ := (blank s).setting) hstart
    rwa [List.foldl_map] at hengines
  have hbuild : P (Setting.start s).signposts := by
    unfold Setting.start
    dsimp only
    rw [foldl_keeps Setting.signposts_learn]
    exact hseeded
  have hsetting := setting_run? (setting_build s ▸ Setting.coherent_start s) hrun
  change P c.setting.signposts
  rw [hsetting, setting_build]
  exact Setting.signposts_foldl_after hadd events hbuild

/-- The registered engines ascend by number. -/
theorem ordered_of_run? [PatternLibrary] {s : Setup} {events : List Event}
    (hrun : (build s).run? events = some c) : c.signposts.Ordered :=
  signposts_induction (P := Signposts.Ordered) .nil (fun _ e h => h.add e) hrun

theorem router_of_run? [PatternLibrary] {s : Setup} {events : List Event}
    (hrun : (build s).run? events = some c) : c.router = s.router :=
  signposts_induction (P := fun p => p.router = s.router) rfl (fun _ _ h => h) hrun

/-! ## Writes -/

/-- A write goes to the master of its group, unless all tasks go to the same unit. -/
theorem route_of_write (hrouter : ∀ u, c.router ≠ .fixed u) {x : Task} (hwrite : x.isWrite = true)
    (s : StorageShape) : c.route x s = s.fragment.masterId := by
  unfold route
  split
  · rfl
  · rw [Affinity.unitFor, hwrite]
    rfl
  · rename_i u hfixed
    exact absurd hfixed (hrouter u)

end Cluster
end SeriesExec
