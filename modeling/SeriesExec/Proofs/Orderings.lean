import Mathlib.Data.List.Basic
import SeriesExec.Proofs.Accounts

/-!
# Orderings — the order of ranges

Ranges are ordered by their bounds, whatever their kind is.  A missing lower bound comes first and a
missing upper one last, and a subtree comes behind the interval that has the same bounds.  This file
defines `PathRange.Ascending`, for lists of ranges in order.

Main statements: every list of ranges can be put in order in one way (`existsUnique_ascending`); the
order is total, and a ledger, which keeps its keys in it, counts each key by itself
(`order_is_lawful`).
-/

namespace SeriesExec
namespace PathRange

variable {a b : PathRange} {l l' : List PathRange}

theorem isLE_total (a b : PathRange) :
    (compare a b).isLE = true ∨ (compare b a).isLE = true := by
  have hswap : compare b a = (compare a b).swap := Std.OrientedOrd.eq_swap
  rw [hswap]
  cases compare a b
  · exact .inl rfl
  · exact .inl rfl
  · exact .inr rfl

theorem eq_of_isLE (hab : (compare a b).isLE = true) (hba : (compare b a).isLE = true) : a = b :=
  Std.LawfulEqOrd.eq_of_compare (Std.OrientedCmp.isLE_antisymm hab hba)

/-- The ranges are in order; a range may be there more than once. -/
def Ascending (l : List PathRange) : Prop :=
  l.Pairwise fun a b => (compare a b).isLE = true

/-- There is one way to put ranges in order. -/
theorem existsUnique_ascending (l : List PathRange) : ∃! l', l'.Perm l ∧ Ascending l' := by
  let le : PathRange → PathRange → Bool := fun a b => (compare a b).isLE
  have hsorted : Ascending (l.mergeSort le) := by
    apply List.pairwise_mergeSort
    · intro a b c
      exact Std.TransOrd.isLE_trans
    · intro a b
      simpa [le] using isLE_total a b
  refine ⟨l.mergeSort le, ⟨List.mergeSort_perm l le, hsorted⟩, ?_⟩
  rintro l' ⟨hperm, hascending⟩
  have hsame : l'.Perm (l.mergeSort le) := hperm.trans (List.mergeSort_perm l le).symm
  exact hsame.eq_of_pairwise (fun _ _ _ _ => eq_of_isLE) hascending hsorted

theorem nodup_keys {tallies : List (Fragment.Key × KindTallies)}
    (h : KeyedList.Sorted tallies) : (tallies.map Prod.fst).Nodup := by
  rw [List.Nodup, List.pairwise_map]
  refine h.imp fun {x y} hlt heq => ?_
  rw [heq, Std.ReflOrd.compare_self] at hlt
  cases hlt

/-- The order of ranges is a total order on what the ranges are made of: swapping two ranges turns
the comparison round, it is transitive and total, and only equal ranges compare as equal.  So there
is one way to sort ranges; and whatever a ledger is asked, the keys of the tallies that it hands out
are different, and as long as no sum becomes too long it counts for each key and kind the tasks that
were recorded for this key, and no others. -/
theorem order_is_lawful :
    (∀ a b : PathRange, compare b a = (compare a b).swap) ∧
    (∀ a b c : PathRange, (compare a b).isLE = true → (compare b c).isLE = true →
      (compare a c).isLE = true) ∧
    (∀ a b : PathRange, (compare a b).isLE = true ∨ (compare b a).isLE = true) ∧
    (∀ a b : PathRange, compare a b = .eq ↔ a = b) ∧
    (∀ l, ∃! l', l'.Perm l ∧ Ascending l') ∧
    ∀ calls : List Ledger.Call,
      (∀ tallies ∈ Ledger.empty.handed calls, (tallies.map Prod.fst).Nodup) ∧
      (Ledger.empty.after calls ≠ .spoiled → ∀ key kind,
        totalOf (Ledger.countAt key kind) (Ledger.empty.handed calls) +
            Ledger.countOf kind ((Ledger.empty.after calls).stats key) =
          calls.countP (Ledger.Call.counts key kind)) := by
  have hempty : Ledger.empty.Ordered := List.Pairwise.nil
  refine ⟨fun a b => Std.OrientedOrd.eq_swap, fun a b c => Std.TransOrd.isLE_trans, isLE_total,
    fun a b => Std.LawfulEqCmp.compare_eq_iff_eq, existsUnique_ascending, fun calls => ⟨?_, ?_⟩⟩
  · intro tallies hmem
    exact nodup_keys (Ledger.sorted_handed hempty calls tallies hmem)
  · intro hkept key kind
    have hnone : Ledger.countOf kind (Ledger.empty.stats key) = 0 := rfl
    have hcounts := Ledger.counts_after hempty hkept key kind
    rwa [hnone, Nat.zero_add] at hcounts

/-- Tasks on a subtree and on the interval that has its bounds, before and after the ledger is
emptied. -/
def sharedBounds : List Ledger.Call :=
  let wide : Fragment.Key := (interval (some "cpu") (some "cpu/"), KeyInterval.all)
  let narrow : Fragment.Key := (subtree "cpu", KeyInterval.all)
  [.record 0 narrow (some .project) (.ofMillis 1), .record 1 wide (some .project) (.ofMillis 1),
    .take, .record 2 narrow (some .project) (.ofMillis 1), .stats wide]

theorem order_is_lawful_sample :
    totalOf (Ledger.countAt (subtree "cpu", KeyInterval.all) .project)
        (Ledger.empty.handed sharedBounds) +
      Ledger.countOf .project
        ((Ledger.empty.after sharedBounds).stats (subtree "cpu", KeyInterval.all)) = 2 ∧
    (Ledger.empty.handed sharedBounds).map List.length = [2] := by
  constructor
  · have hkept : Ledger.empty.after sharedBounds ≠ .spoiled := by decide
    exact (order_is_lawful.2.2.2.2.2 sharedBounds).2 hkept _ _
  · decide

end PathRange
end SeriesExec
