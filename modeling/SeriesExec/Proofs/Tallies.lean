import Mathlib.Logic.Basic
import SeriesExec.Cluster.Tasks

/-!
# Tallies — what telling the monitors adds to a ledger

A ledger keeps its tallies in the order of their keys, so every key has one place.  This file
defines:

* the laws of the orders of ranges, intervals, keys and kinds;
* `Ledger.countOf` — the count of one kind among the tallies of a key;
* `Ledger.Quantity` and `Ledger.amountOf` — what tasks are measured by, and how much of it the
  tallies of a key have for one kind;
* `Ledger.Recording` — what becomes of a ledger that is to count a task;
* `Ledger.Ordered` and `Ledger.Short` — the keys of a ledger ascend, and its times are short;
* `Monitor.isCounting` — the monitors that count.

Main statements: telling the monitors about a task adds one for each that counts, at the key and
the kind of the task and nowhere else (`countOf_tellAll`), and spoils no ledger as long as the times
are short (`short_tellAll`).
-/

namespace SeriesExec

/-! ## The order of keys -/

/-- A comparison of what two things have in them has the laws of the comparison. -/
theorem transCmp_of_parts {α β : Type} (cmp : β → β → Ordering) [Std.TransCmp cmp] (part : α → β) :
    Std.TransCmp fun a b => cmp (part a) (part b) where
  eq_swap := Std.OrientedCmp.eq_swap
  isLE_trans := Std.TransCmp.isLE_trans

namespace PathBounds

/-- Lower bounds are in the usual order of options. -/
theorem compareStart_eq (a b : Option String) : compareStart a b = compare a b := by
  cases a <;> cases b <;> rfl

instance : Std.TransCmp compareStart where
  eq_swap := by
    intro a b
    rw [compareStart_eq, compareStart_eq]
    exact Std.OrientedCmp.eq_swap
  isLE_trans := by
    intro a b c
    rw [compareStart_eq, compareStart_eq, compareStart_eq]
    exact Std.TransCmp.isLE_trans

instance : Std.TransCmp compareStop where
  eq_swap := by
    intro a b
    cases a <;> cases b <;> first | rfl | exact Std.OrientedOrd.eq_swap
  isLE_trans := by
    intro a b c hab hbc
    cases a with
    | none =>
      -- Nothing but the missing bound is above the missing bound.
      cases b with
      | none => exact hbc
      | some _ => exact absurd hab Bool.false_ne_true
    | some _ =>
      cases b with
      | none =>
        cases c with
        | none => rfl
        | some _ => exact absurd hbc Bool.false_ne_true
      | some _ =>
        cases c with
        | none => rfl
        | some _ => exact Std.TransOrd.isLE_trans hab hbc

theorem eq_of_compareStart {a b : Option String} (h : compareStart a b = .eq) : a = b := by
  rw [compareStart_eq] at h
  exact Std.LawfulEqCmp.eq_of_compare h

theorem eq_of_compareStop {a b : Option String} (h : compareStop a b = .eq) : a = b := by
  cases a <;> cases b <;> simp only [compareStop, reduceCtorEq] at h
  · rfl
  · exact congrArg some (Std.LawfulEqOrd.eq_of_compare h)

end PathBounds

instance : Std.TransOrd PathRange :=
  have := transCmp_of_parts PathBounds.compareStart fun r : PathRange => r.bounds.start
  have := transCmp_of_parts PathBounds.compareStop fun r : PathRange => r.bounds.stop
  have := transCmp_of_parts (compare : Bool → Bool → Ordering) PathRange.isSubtree
  inferInstanceAs (Std.TransCmp (compareLex (compareLex _ _) _))

instance : Std.LawfulEqOrd PathRange where
  compare_self := Std.ReflCmp.compare_self
  eq_of_compare := by
    intro a b h
    obtain ⟨hbounds, hsubtree⟩ := Ordering.then_eq_eq.mp h
    obtain ⟨hstart, hstop⟩ := Ordering.then_eq_eq.mp hbounds
    have hstart := PathBounds.eq_of_compareStart hstart
    have hstop := PathBounds.eq_of_compareStop hstop
    have hsubtree := Std.LawfulEqOrd.eq_of_compare hsubtree
    -- Ranges of one sort are known by their bounds.
    cases a with
    | interval start stop =>
      cases b with
      | interval start' stop' => exact congrArg₂ PathRange.interval hstart hstop
      | subtree root' => cases hsubtree
    | subtree root =>
      cases b with
      | interval start' stop' => cases hsubtree
      | subtree root' => exact congrArg PathRange.subtree (Option.some.inj hstart)

instance : Std.TransOrd KeyInterval :=
  have := transCmp_of_parts (compare : Int → Int → Ordering) KeyInterval.start
  have := transCmp_of_parts (compare : Int → Int → Ordering) KeyInterval.stop
  inferInstanceAs (Std.TransCmp (compareLex _ _))

instance : Std.LawfulEqOrd KeyInterval where
  compare_self := Std.ReflCmp.compare_self
  eq_of_compare := by
    rintro ⟨start, stop⟩ ⟨start', stop'⟩ h
    obtain ⟨hstart, hstop⟩ := Ordering.then_eq_eq.mp h
    exact congrArg₂ KeyInterval.mk (Std.LawfulEqOrd.eq_of_compare hstart)
      (Std.LawfulEqOrd.eq_of_compare hstop)

instance : Std.TransOrd Fragment.Key :=
  have := transCmp_of_parts (compare : PathRange → PathRange → Ordering)
    (Prod.fst : Fragment.Key → PathRange)
  have := transCmp_of_parts (compare : KeyInterval → KeyInterval → Ordering)
    (Prod.snd : Fragment.Key → KeyInterval)
  inferInstanceAs (Std.TransCmp (compareLex _ _))

instance : Std.LawfulEqOrd Fragment.Key where
  compare_self := Std.ReflCmp.compare_self
  eq_of_compare := by
    rintro ⟨range, keys⟩ ⟨range', keys'⟩ h
    obtain ⟨hrange, hkeys⟩ := Ordering.then_eq_eq.mp h
    exact congrArg₂ Prod.mk (Std.LawfulEqOrd.eq_of_compare hrange)
      (Std.LawfulEqOrd.eq_of_compare hkeys)

instance : Std.TransOrd OperatorKind :=
  transCmp_of_parts (compare : Nat → Nat → Ordering) OperatorKind.rank

instance : Std.LawfulEqOrd OperatorKind where
  compare_self := Std.ReflCmp.compare_self
  eq_of_compare := by
    intro a b h
    have hrank : a.rank = b.rank := Std.LawfulEqOrd.eq_of_compare (α := Nat) h
    cases a <;> cases b <;> first | rfl | cases hrank

/-! ## One place for each key -/

namespace Ledger

variable {l : Ledger} {entries : List (Fragment.Key × KindTallies)} {key key' : Fragment.Key}
  {kind kind' : OperatorKind} {first : Option OperatorKind} {task : TaskId} {span : Duration}
  {n : Nat}

/-- The count of one kind among the tallies of a key. -/
def countOf (kind : OperatorKind) (kinds : KindTallies) : Nat :=
  ((KeyedList.find? kind kinds).map Tally.count).getD 0

/-- A quantity that grows with every task: how many they are, or how long they took. -/
structure Quantity where
  ofTally : Tally → Nat
  ofTask : Duration → Nat
  ofTally_none : ofTally ⟨0, Duration.zero⟩ = 0
  ofTally_add : ∀ (old : Tally) (span total : Duration),
    total.nanos = old.span.nanos + span.nanos →
      ofTally ⟨old.count + 1, total⟩ = ofTally old + ofTask span

/-- How many the tasks are. -/
def Quantity.number : Quantity :=
  ⟨Tally.count, fun _ => 1, rfl, fun _ _ _ _ => rfl⟩

/-- How long the tasks took, in nanoseconds. -/
def Quantity.time : Quantity :=
  ⟨fun t => t.span.nanos, Duration.nanos, rfl, fun _ _ _ htotal => htotal⟩

/-- A quantity of one kind among the tallies of a key. -/
def amountOf (q : Quantity) (kind : OperatorKind) (kinds : KindTallies) : Nat :=
  ((KeyedList.find? kind kinds).map q.ofTally).getD 0

/-- A quantity at a key and a kind in a ledger whose tallies are these. -/
theorem amount_tally (q : Quantity) (entries : List (Fragment.Key × KindTallies))
    (key : Fragment.Key) (kind : OperatorKind) :
    amountOf q kind ((KeyedList.find? key entries).getD []) =
      q.ofTally (tally entries key kind) := by
  rw [amountOf, tally]
  cases KeyedList.find? key entries with
  | none => exact q.ofTally_none.symm
  | some kinds =>
    rw [Option.getD_some, Option.bind_some]
    cases KeyedList.find? kind kinds with
    | none => exact q.ofTally_none.symm
    | some t => rfl

/-- A tally that is put in its place is found there, and all others are as before. -/
theorem tally_update (h : KeyedList.Sorted entries) (new : Tally) :
    tally (KeyedList.update key (fun kinds => KeyedList.insert kind new (kinds.getD [])) entries)
      key' kind' = if key' = key ∧ kind' = kind then new else tally entries key' kind' := by
  rw [tally, KeyedList.find?_update _ _ _ h, tally]
  by_cases hkey : key' = key
  · subst hkey
    rw [if_pos rfl, Option.bind_some, KeyedList.find?_insert]
    by_cases hkind : kind' = kind
    · rw [if_pos hkind, if_pos ⟨rfl, hkind⟩, Option.getD_some]
    · rw [if_neg hkind, if_neg fun hboth => hkind hboth.2]
      cases KeyedList.find? key' entries <;> rfl
  · rw [if_neg hkey, if_neg fun hboth => hkey hboth.1]

/-- The tallies with one more task at a key and a kind. -/
def counted (entries : List (Fragment.Key × KindTallies)) (key : Fragment.Key)
    (kind : OperatorKind) (total : Duration) : List (Fragment.Key × KindTallies) :=
  let new : Tally := ⟨(tally entries key kind).count + 1, total⟩
  KeyedList.update key (fun kinds => KeyedList.insert kind new (kinds.getD [])) entries

/-- What becomes of a ledger that is to count a task. -/
inductive Recording (key : Fragment.Key) (span : Duration) :
    Ledger → Option OperatorKind → Ledger → Prop where
  /-- The task has no operators. -/
  | refused (l : Ledger) : Recording key span l none l
  | spoiled (kind : OperatorKind) : Recording key span .spoiled (some kind) .spoiled
  | counted (entries : List (Fragment.Key × KindTallies)) (kind : OperatorKind) (total : Duration)
      (htotal : total.nanos = (tally entries key kind).span.nanos + span.nanos) :
      Recording key span (.counting entries) (some kind)
        (.counting (counted entries key kind total))
  | overflowed (entries : List (Fragment.Key × KindTallies)) (kind : OperatorKind)
      (hlong : UInt64.size * 1000000000 ≤ (tally entries key kind).span.nanos + span.nanos) :
      Recording key span (.counting entries) (some kind) .spoiled

theorem recording (l : Ledger) (task : TaskId) (key : Fragment.Key) (first : Option OperatorKind)
    (span : Duration) : Recording key span l first (l.record task key first span).1 := by
  cases first with
  | none => exact .refused l
  | some kind =>
    cases l with
    | spoiled => exact .spoiled kind
    | counting entries =>
      rw [record]
      dsimp only
      rw [Duration.add?, Duration.ofNanos?]
      split
      · rename_i hnone
        split at hnone
        · cases hnone
        · rename_i hlong
          exact .overflowed entries kind (Nat.le_of_not_lt hlong)
      · rename_i total hsome
        split at hsome
        · cases hsome
          exact .counted entries kind _ rfl
        · cases hsome

/-- The keys of the ledger ascend. -/
def Ordered : Ledger → Prop
  | .counting entries => KeyedList.Sorted entries
  | .spoiled => True

/-- The ledger is not spoiled, and no tally is longer than the given time. -/
def Short (limit : Nat) : Ledger → Prop
  | .counting entries => ∀ key kind, (tally entries key kind).span.nanos ≤ limit
  | .spoiled => False

theorem Recording.ordered {l' : Ledger} (hrecording : Recording key span l first l')
    (h : l.Ordered) : l'.Ordered := by
  cases hrecording with
  | refused => exact h
  | spoiled kind => trivial
  | counted entries kind total _ => exact KeyedList.sorted_update _ _ h
  | overflowed entries kind _ => trivial

/-- A task that is counted adds what it counts for at its own key and kind and nowhere else. -/
theorem Recording.amountOf {l' : Ledger} (hrecording : Recording key span l first l')
    (q : Quantity) (h : l.Ordered) (hkept : l' ≠ .spoiled) (key' : Fragment.Key)
    (kind' : OperatorKind) :
    amountOf q kind' (l'.stats key') =
      amountOf q kind' (l.stats key') +
        if key' = key ∧ first = some kind' then q.ofTask span else 0 := by
  cases hrecording with
  | refused => simp
  | spoiled kind => exact absurd rfl hkept
  | counted entries kind total htotal =>
    rw [stats, stats, amount_tally, amount_tally, Ledger.counted, tally_update h]
    by_cases hplace : key' = key ∧ kind' = kind
    · obtain ⟨rfl, rfl⟩ := hplace
      simpa using q.ofTally_add _ _ _ htotal
    · have hother : ¬(key' = key ∧ some kind = some kind') := fun hboth =>
        hplace ⟨hboth.1, (Option.some.inj hboth.2).symm⟩
      rw [if_neg hplace, if_neg hother, Nat.add_zero]
  | overflowed entries kind _ => exact absurd rfl hkept

theorem Recording.countOf {l' : Ledger} (hrecording : Recording key span l first l')
    (h : l.Ordered) (hkept : l' ≠ .spoiled) (key' : Fragment.Key) (kind' : OperatorKind) :
    countOf kind' (l'.stats key') =
      countOf kind' (l.stats key') + if key' = key ∧ first = some kind' then 1 else 0 :=
  hrecording.amountOf .number h hkept key' kind'

theorem Recording.short {l' : Ledger} (hrecording : Recording key span l first l')
    (hordered : l.Ordered) (h : l.Short n) (hroom : n + span.nanos < UInt64.size * 1000000000) :
    l'.Short (n + span.nanos) := by
  cases hrecording with
  | refused =>
    cases l with
    | counting entries => exact fun key kind => Nat.le_add_right_of_le (h key kind)
    | spoiled => exact h
  | spoiled kind => exact h
  | counted entries kind total htotal =>
    intro key' kind'
    rw [Ledger.counted, tally_update hordered]
    split
    · exact Nat.le_trans (Nat.le_of_eq htotal) (Nat.add_le_add_right (h key kind) _)
    · exact Nat.le_add_right_of_le (h key' kind')
  | overflowed entries kind hlong =>
    have hshort := h key kind
    omega

end Ledger

/-! ## Telling the monitors -/

/-- The monitor counts tasks in the ledger. -/
def Monitor.isCounting : Monitor → Bool
  | .counting => true
  | .outside _ => false

namespace Cluster

variable {l : Ledger} {key key' : Fragment.Key} {kind' : OperatorKind}
  {first : Option OperatorKind} {span : Duration} {n : Nat}

theorem ordered_tellAll (t : TaskId) (monitors : List Monitor) (h : l.Ordered) :
    (tellAll t key first span monitors l).Ordered := by
  induction monitors generalizing l with
  | nil => exact h
  | cons m rest ih =>
    cases m with
    | counting => exact ih ((l.recording t key first span).ordered h)
    | outside verdict => exact ih h

/-- A spoiled ledger stays spoiled. -/
theorem tellAll_spoiled (t : TaskId) (monitors : List Monitor) :
    tellAll t key first span monitors .spoiled = .spoiled := by
  induction monitors with
  | nil => rfl
  | cons m rest ih =>
    cases m with
    | counting => cases first <;> exact ih
    | outside verdict => exact ih

/-- Each monitor that counts adds one, at the place of the task. -/
theorem countOf_tellAll (t : TaskId) (monitors : List Monitor) (h : l.Ordered)
    (hkept : tellAll t key first span monitors l ≠ .spoiled) :
    Ledger.countOf kind' ((tellAll t key first span monitors l).stats key') =
      Ledger.countOf kind' (l.stats key') +
        monitors.countP Monitor.isCounting * if key' = key ∧ first = some kind' then 1 else 0 := by
  induction monitors generalizing l with
  | nil => simp [tellAll]
  | cons m rest ih =>
    cases m with
    | counting =>
      have hrecording := l.recording t key first span
      have hkept' : (l.record t key first span).1 ≠ .spoiled := fun hspoiled =>
        hkept ((congrArg (tellAll t key first span rest) hspoiled).trans (tellAll_spoiled t rest))
      rw [List.countP_cons_of_pos rfl, Nat.add_one_mul, Nat.add_comm (_ * _), ← Nat.add_assoc,
        ← hrecording.countOf h hkept']
      exact ih (hrecording.ordered h) hkept
    | outside verdict =>
      rw [List.countP_cons_of_neg Bool.false_ne_true]
      exact ih h hkept

theorem short_tellAll (t : TaskId) (monitors : List Monitor) (hordered : l.Ordered)
    (h : l.Short n) (hroom : n + monitors.countP Monitor.isCounting * span.nanos <
      UInt64.size * 1000000000) :
    (tellAll t key first span monitors l).Short
      (n + monitors.countP Monitor.isCounting * span.nanos) := by
  induction monitors generalizing l n with
  | nil => simpa [tellAll] using h
  | cons m rest ih =>
    cases m with
    | counting =>
      have hrecording := l.recording t key first span
      rw [List.countP_cons_of_pos rfl, Nat.add_one_mul, Nat.add_comm (_ * _), ← Nat.add_assoc]
        at hroom ⊢
      exact ih (hrecording.ordered hordered)
        (hrecording.short hordered h (Nat.lt_of_le_of_lt (Nat.le_add_right _ _) hroom)) hroom
    | outside verdict =>
      rw [List.countP_cons_of_neg Bool.false_ne_true] at hroom ⊢
      exact ih hordered h hroom

end Cluster
end SeriesExec
