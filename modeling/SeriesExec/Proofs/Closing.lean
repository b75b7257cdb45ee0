import SeriesExec.Proofs.Noninterference

/-!
# Closing — what the loops of the units are needed for

With the loops of the units off, none of them moves and no unit becomes known.  Everything else does
what it does with the loops on, so turning them off before it or after it makes no difference.  This
file defines:

* `Cluster.shut` — the cluster with the loops of its units off;
* `Cluster.Request.announcesUnit` and `Cluster.Event.needsLoops` — what the loops are needed for.

Main statements: `shut` changes places with moves (`step?_shut`), with requests (`handle_shut`,
`handle_shut_of_announcesUnit`) and so with histories (`run?_shut`).
-/

namespace SeriesExec
namespace Cluster

variable {c c' : Cluster}

/-- The cluster with the loops of its units off. -/
def shut (c : Cluster) : Cluster :=
  { c with isClosed := true }

/-- With the loops off, all other moves do what they do with them on. -/
theorem step?_shut [PatternLibrary] (c : Cluster) {s : Step} (hs : s.isLoop = false) :
    c.shut.step? s = (c.step? s).map shut :=
  step?_veil (b := fun _ => true) (g := id) fun hloop => absurd hloop (Bool.eq_false_iff.mp hs)

/-! ## Requests -/

/-- Whether the request tells that there is a unit. -/
def Request.announcesUnit : Request → Bool
  | .addUnit _ | .notifyUnit _ _ => true
  | _ => false

theorem engineCalled_shut (c : Cluster) (call : Call StorageEngine) :
    c.shut.engineCalled call = (c.engineCalled call).shut := by
  rw [engineCalled, engineCalled, apply_ite shut]
  refine ite_congr rfl (fun _ => rfl) fun _ => ?_
  rcases call with ⟨_, _ | _, _ | e⟩
  · rfl
  · dsimp only
    have htry : c.shut.tryEngine e = (c.tryEngine e).shut :=
      tryEngine_veil (b := fun _ => true) (g := id) c e
    rw [htry, apply_ite shut]
    rfl
  · rfl
  · rfl

theorem addEngine_shut (c : Cluster) (e : StorageEngine) :
    c.shut.addEngine e = (c.addEngine e).map shut := by
  have hcatalog : c.shut.catalog = c.catalog := rfl
  rw [addEngine, addEngine, hcatalog]
  cases c.catalog.addEngine e with
  | error f => rfl
  | ok r =>
    have hcalled : r.2.foldl engineCalled { c with catalog := r.1 }.shut =
      (r.2.foldl engineCalled { c with catalog := r.1 }).shut :=
        List.foldl_hom shut engineCalled_shut
    exact congrArg Except.ok hcalled

theorem fits_shut (c : Cluster) (r : Request) : c.shut.fits r = c.fits r :=
  fits_veil (b := fun _ => true) (g := id) c r

theorem handle_shut [PatternLibrary] (c : Cluster) {r : Request} (hr : r.announcesUnit = false) :
    c.shut.handle r = ((c.handle r).1.shut, (c.handle r).2) := by
  by_cases hhooks : r.meetsHooks = true
  · have hfits : c.shut.fits r = c.fits r := fits_shut c r
    rw [handle, handle, hfits]
    cases r with
    | addEngine e =>
      simp only [obey, addEngine_shut]
      cases c.addEngine e <;> rfl
    | notifyEngine before after =>
      exact Prod.ext (List.foldl_hom shut engineCalled_shut) rfl
    | takeNotices => rfl
    | addUnit u => cases hr
    | notifyUnit before after => cases hr
    | _ => cases hhooks
  · exact handle_veil (b := fun _ => true) (g := id) rfl c (Bool.eq_false_iff.mpr hhooks)

/-- A hook that tells of a unit starts no loop once the loops are off, and does all else. -/
theorem unitCalled_shut (c : Cluster) (units : List UnitLoop) (call : Call StorageUnit) :
    { c.shut with units := units }.unitCalled call =
      { (c.unitCalled call).shut with units := units } := by
  rw [unitCalled, unitCalled]
  split
  · rfl
  · rcases call with ⟨_, _ | _, _ | u⟩
    · rfl
    · have hlistening : { c.shut with units := units }.isListening = c.isListening := rfl
      have hstill : { c.shut with units := units }.learnUnit u =
        { c.shut with units := units } := rfl
      dsimp only
      rw [hlistening, hstill]
      split
      · unfold learnUnit
        split <;> rfl
      · rfl
    · rfl
    · rfl

variable [PatternLibrary]

/-- With the loops off, the units that are announced do not become known. -/
theorem handle_shut_of_announcesUnit (c : Cluster) {r : Request} (hr : r.announcesUnit = true) :
    c.shut.handle r = ({ (c.handle r).1.shut with units := c.units }, (c.handle r).2) := by
  let quiet := fun c' : Cluster => { c'.shut with units := c.units }
  have hcalls : ∀ (calls : List (Call StorageUnit)) (c' : Cluster),
      calls.foldl unitCalled (quiet c') = quiet (calls.foldl unitCalled c') :=
    fun calls c' => List.foldl_hom quiet fun c call => unitCalled_shut c _ call
  have hfits : c.shut.fits r = c.fits r := fits_shut c r
  rw [handle, handle, hfits]
  split
  · cases r with
    | addUnit u =>
      have hcatalog : c.shut.catalog = c.catalog := rfl
      simp only [obey, addUnit, hcatalog]
      cases c.catalog.addUnit u with
      | error f => rfl
      | ok r => exact Prod.ext (hcalls r.2 { c with catalog := r.1 }) rfl
    | notifyUnit before after =>
      exact Prod.ext (hcalls (c.catalog.announceUnit before after) c) rfl
    | _ => cases hr
  · rfl

/-! ## Histories -/

/-- Whether a shutdown makes a difference to the event. -/
def Event.needsLoops : Event → Bool
  | .asked r => r.announcesUnit
  | .moved s => s.isLoop

theorem after?_shut (c : Cluster) {e : Event} (he : e.needsLoops = false) :
    c.shut.after? e = (c.after? e).map shut := by
  cases e with
  | asked r => exact congrArg (fun reply => some reply.1) (handle_shut c he)
  | moved s => exact step?_shut c he

/-- A history in which no loop moves and no unit is announced is the same whether the loops are on
or off. -/
theorem run?_shut {events : List Event} (hevents : ∀ e ∈ events, e.needsLoops = false)
    (c : Cluster) : c.shut.run? events = (c.run? events).map shut := by
  induction events generalizing c with
  | nil => rfl
  | cons e rest ih =>
    obtain ⟨he, hrest⟩ := List.forall_mem_cons.mp hevents
    rw [run?, run?, after?_shut c he]
    cases c.after? e with
    | none => rfl
    | some c' => exact ih hrest c'

end Cluster
end SeriesExec
