import Mathlib.Data.List.Sort
import Mathlib.Data.String.Basic
import SeriesExec.Replica.Affinity

/-!
# Sessions — reads of one session stay together

The member of a group that serves a read is picked from the names of all members by a hash.  The
names are put in order first, so it does not matter in which order they are listed and which of them
is the master.  Nothing depends on which hash it is; `digest` is the one by which a cluster routes.
This file defines `Affinity.Alike`: two reads belong to one session, or to none and read from ranges
of one text.

Main statement: every task stays in the group of its fragment, writes go to the master, and reads
that are alike go to the same member of a group (`reads_follow_session`).
-/

namespace SeriesExec

/-- A task writes exactly if its first operator inserts or deletes. -/
theorem Task.isWrite_iff (x : Task) :
    x.isWrite = true ↔ x.firstKind? = some .insert ∨ x.firstKind? = some .delete := by
  rw [Task.isWrite, Task.firstKind?]
  cases x.operators.head? with
  | none => simp
  | some op => cases op <;> simp [Operator.isWrite, Operator.kind]

namespace Affinity

variable {hash : List UInt8 → UInt64} {ids ids' : List UnitId} {f f' : Fragment}
  {s t : StorageShape} {x y : Task}

/-! ## Picking a name -/

/-- Names have one ascending order, however they are listed. -/
theorem mergeSort_eq_of_perm (h : ids.Perm ids') :
    (ids.mergeSort fun a b => decide (a ≤ b)) = ids'.mergeSort fun a b => decide (a ≤ b) := by
  have ascending : ∀ l : List UnitId,
      (l.mergeSort fun a b => decide (a ≤ b)).Pairwise fun a b => a ≤ b := by
    intro l
    exact List.pairwise_mergeSort' (· ≤ ·) l
  have hperm : (ids.mergeSort fun a b => decide (a ≤ b)).Perm
      (ids'.mergeSort fun a b => decide (a ≤ b)) :=
    (List.mergeSort_perm ids _).trans (h.trans (List.mergeSort_perm ids' _).symm)
  exact hperm.eq_of_pairwise (fun a b _ _ hab hba => le_antisymm hab hba) (ascending ids)
    (ascending ids')

/-- The place that the hash gives is a place of the list, so the default is never needed. -/
theorem exists_pick_eq (hids : ids ≠ []) (hash : UInt64) :
    ∃ u, ∀ default, pick ids hash default = u ∧ u ∈ ids := by
  let sorted := ids.mergeSort fun a b => decide (a ≤ b)
  have hperm : sorted.Perm ids := List.mergeSort_perm ids _
  have hlength : 0 < sorted.length := by
    rw [hperm.length_eq]
    exact List.length_pos_iff.mpr hids
  have hplace : hash.toNat % sorted.length < sorted.length := Nat.mod_lt _ hlength
  refine ⟨sorted[hash.toNat % sorted.length], ?_⟩
  intro default
  constructor
  · change sorted[hash.toNat % sorted.length]?.getD default = _
    rw [List.getElem?_eq_getElem hplace, Option.getD_some]
  · exact hperm.mem_iff.mp (List.getElem_mem hplace)

theorem pick_mem (hids : ids ≠ []) (hash : UInt64) (default : UnitId) :
    pick ids hash default ∈ ids := by
  obtain ⟨u, hu⟩ := exists_pick_eq hids hash
  rw [(hu default).1]
  exact (hu default).2

/-- The same names give the same pick, in whatever order they are listed. -/
theorem pick_eq_of_perm (h : ids.Perm ids') (hids : ids ≠ []) (hash : UInt64)
    (default default' : UnitId) : pick ids hash default = pick ids' hash default' := by
  obtain ⟨u, hu⟩ := exists_pick_eq hids hash
  have hsame : pick ids' hash default' = pick ids hash default' := by
    rw [pick, pick, mergeSort_eq_of_perm h]
  rw [hsame, (hu default).1, (hu default').1]

/-! ## Choosing a member of a group -/

theorem groupIds_ne_nil (u : StorageUnit) : u.groupIds ≠ [] :=
  List.cons_ne_nil _ _

/-- A group without replicas is its master. -/
theorem groupIds_of_replicas_eq_nil (h : f.master.replicas = []) :
    f.master.groupIds = [f.masterId] := by
  rw [StorageUnit.groupIds, h]
  rfl

theorem chooseBy_mem (f : Fragment) (isWrite : Bool) (session : Option UInt64) :
    chooseBy hash f isWrite session ∈ f.master.groupIds := by
  unfold chooseBy
  split
  · exact List.mem_cons_self
  · exact pick_mem (groupIds_ne_nil f.master) _ _

theorem chooseBy_of_write (session : Option UInt64) : chooseBy hash f true session = f.masterId :=
  rfl

theorem chooseBy_of_alone (h : f.master.replicas = []) (isWrite : Bool)
    (session : Option UInt64) : chooseBy hash f isWrite session = f.masterId := by
  have hmem : chooseBy hash f isWrite session ∈ f.master.groupIds := chooseBy_mem f isWrite session
  rw [groupIds_of_replicas_eq_nil h] at hmem
  exact List.mem_singleton.mp hmem

/-- Reads that are spread by the same bytes over groups with the same members go to the same one. -/
theorem chooseBy_eq_of_seed (hgroup : f.master.groupIds.Perm f'.master.groupIds)
    {session session' : Option UInt64}
    (hseed : seed f.range session = seed f'.range session') :
    chooseBy hash f false session = chooseBy hash f' false session' := by
  by_cases halone : f.master.replicas = []
  · -- Both groups are one and the same master.
    have hids := groupIds_of_replicas_eq_nil halone
    have hmem' : chooseBy hash f' false session' ∈ f'.master.groupIds :=
      chooseBy_mem f' false session'
    rw [← hgroup.mem_iff, hids] at hmem'
    rw [chooseBy_of_alone halone, List.mem_singleton.mp hmem']
  · have hlength := hgroup.length_eq
    have halone' : f'.master.replicas ≠ [] := by
      intro hnil
      apply halone
      rw [groupIds_of_replicas_eq_nil hnil, StorageUnit.groupIds] at hlength
      exact List.length_eq_zero_iff.mp (by simpa using hlength)
    have hpicked : ∀ {g : Fragment} (session : Option UInt64), g.master.replicas ≠ [] →
        chooseBy hash g false session =
          pick g.master.groupIds (hash (seed g.range session)) g.masterId := by
      intro g session hreplicas
      rw [chooseBy, if_neg (by simpa using hreplicas)]
    rw [hpicked session halone, hpicked session' halone', hseed]
    exact pick_eq_of_perm hgroup (groupIds_ne_nil f.master) _ _ _

/-! ## Tasks -/

/-- Two reads belong to one session, or to none and read from ranges of one text. -/
inductive Alike (s t : StorageShape) : Prop where
  | session (i : UInt64) (hs : s.session = some i) (ht : t.session = some i)
  | range (hs : s.session = none) (ht : t.session = none)
      (htext : s.fragment.range.render = t.fragment.range.render)

theorem Alike.seed_eq (h : Alike s t) :
    seed s.fragment.range s.session = seed t.fragment.range t.session := by
  cases h with
  | session i hs ht =>
    rw [hs, ht]
    rfl
  | range hs ht htext =>
    rw [hs, ht, seed, seed, htext]

/-- Who serves a storage task, by whatever hash reads are spread.  It is always a member of the
group of the fragment, and the master if the task writes or the group has no replicas.  Of two tasks
that write nothing and are alike, on fragments whose groups have the same members, both go to the
same member: in whatever order the replicas are listed, whichever member is the master, and whatever
else the tasks and the fragments are made of. -/
theorem reads_follow_session (hash : List UInt8 → UInt64) :
    (∀ (x : Task) (s : StorageShape), x.storage? = some s →
      unitFor hash x s ∈ s.fragment.master.groupIds ∧
      (x.firstKind? = some .insert ∨ x.firstKind? = some .delete ∨
        s.fragment.master.replicas = [] → unitFor hash x s = s.fragment.masterId)) ∧
    ∀ (x y : Task) (s t : StorageShape), x.storage? = some s → y.storage? = some t →
      x.isWrite = false → y.isWrite = false → Alike s t →
      s.fragment.master.groupIds.Perm t.fragment.master.groupIds →
        unitFor hash x s = unitFor hash y t := by
  constructor
  · intro x s _
    refine ⟨chooseBy_mem _ _ _, ?_⟩
    rintro (hinsert | hdelete | halone)
    · rw [unitFor, x.isWrite_iff.mpr (.inl hinsert), chooseBy_of_write]
    · rw [unitFor, x.isWrite_iff.mpr (.inr hdelete), chooseBy_of_write]
    · exact chooseBy_of_alone halone _ _
  · intro x y s t _ _ hx hy halike hgroup
    rw [unitFor, unitFor, hx, hy]
    exact chooseBy_eq_of_seed hgroup halike.seed_eq

/-- A fragment of a group with this master and these replicas. -/
def groupFragment (range : PathRange) (master : UnitId) (replicas : List UnitId) : Fragment :=
  ⟨range, KeyInterval.all, { StorageUnit.newMaster master 1 with
    replicas := replicas.map fun id => StorageUnit.newReplica id 1 master }⟩

theorem reads_follow_session_sample :
    let f := groupFragment .all "a" ["c", "b"]
    let g := groupFragment (.subtree "cpu") "b" ["a", "c"]
    let x := Task.newStorage [.project ["cpu.*"]] f true false (some 7)
    let y := Task.newStorage [.limit 1 0] g false true (some 7)
    x.storage? = some ⟨f, some 7, none, false⟩ ∧ y.storage? = some ⟨g, some 7, none, false⟩ ∧
      unitFor digest x ⟨f, some 7, none, false⟩ = unitFor digest y ⟨g, some 7, none, false⟩ ∧
      unitFor digest x ⟨f, some 7, none, false⟩ ∈ ["a", "c", "b"] :=
  ⟨rfl, rfl,
    (reads_follow_session digest).2 _ _ _ _ rfl rfl rfl rfl (.session 7 rfl rfl) (by decide),
    ((reads_follow_session digest).1 _ _ rfl).1⟩

end Affinity
end SeriesExec
