import Mathlib.Data.List.Basic
import SeriesExec.Numeric.Total
import SeriesExec.Proofs.Tallies

/-!
# Accounts — a ledger over a course of calls

A ledger is written to, read and emptied in any order.  This file defines, in the namespace
`Ledger`:

* `Call` and `Ledger.call` — what a ledger is asked, and what becomes of it;
* `Ledger.after` — the ledger after some calls;
* `Ledger.handed` — the tallies that these calls hand out;
* `Call.counts` and `Call.span?` — the calls that are counted at a key and a kind, and the time that
  each adds there.

Main statements: whatever the calls are, the keys of what is handed out ascend (`sorted_handed`),
and as long as no sum has become too long, what is handed out and what is left add up to the tasks
that were recorded for just this key and kind and to the time they took (`amounts_after`,
`counts_after`).  In any case no count exceeds the number of calls (`countOf_after_le`).
-/

namespace SeriesExec
namespace Ledger

/-- What a ledger is asked. -/
inductive Call where
  | record (task : TaskId) (key : Fragment.Key) (first : Option OperatorKind) (span : Duration)
  | stats (key : Fragment.Key)
  | take

variable {l : Ledger} {c : Call} {calls : List Call} {key : Fragment.Key} {kind : OperatorKind}

/-- The ledger after a call. -/
def call (l : Ledger) : Call → Ledger
  | .record task key first span => (l.record task key first span).1
  | .stats _ => l
  | .take => l.take.1

/-- The ledger after some calls. -/
def after (l : Ledger) (calls : List Call) : Ledger :=
  calls.foldl call l

/-- The tallies that a call hands out. -/
def handedBy (l : Ledger) : Call → List (List (Fragment.Key × KindTallies))
  | .take => [l.take.2]
  | _ => []

/-- The tallies that some calls hand out, those of each taking by themselves. -/
def handed (l : Ledger) : List Call → List (List (Fragment.Key × KindTallies))
  | [] => []
  | c :: rest => l.handedBy c ++ (l.call c).handed rest

/-- Whether the call records a task for this key and kind. -/
def Call.counts (key : Fragment.Key) (kind : OperatorKind) : Call → Bool
  | .record _ key' first _ => key = key' && first = some kind
  | _ => false

/-- The time of a task that the call records for this key and kind. -/
def Call.span? (key : Fragment.Key) (kind : OperatorKind) : Call → Option Duration
  | .record _ key' first span => if key = key' ∧ first = some kind then some span else none
  | _ => none

/-- A quantity at a key and a kind among tallies that have been handed out. -/
def amountAt (q : Quantity) (key : Fragment.Key) (kind : OperatorKind)
    (tallies : List (Fragment.Key × KindTallies)) : Nat :=
  amountOf q kind ((counting tallies).stats key)

/-- The count at a key and a kind among tallies that have been handed out. -/
def countAt (key : Fragment.Key) (kind : OperatorKind)
    (tallies : List (Fragment.Key × KindTallies)) : Nat :=
  countOf kind ((counting tallies).stats key)

/-- Tasks are numbered one by one. -/
theorem totalOf_number (spans : List Duration) :
    totalOf Quantity.number.ofTask spans = spans.length := by
  induction spans with
  | nil => rfl
  | cons span rest ih =>
    rw [totalOf_cons, ih, List.length_cons]
    exact Nat.add_comm _ _

/-! ## One call -/

theorem ordered_call (h : l.Ordered) (c : Call) : (l.call c).Ordered := by
  cases c with
  | record task key first span => exact (l.recording task key first span).ordered h
  | stats key => exact h
  | take =>
    cases l with
    | counting entries => exact List.Pairwise.nil
    | spoiled => trivial

theorem sorted_handedBy (h : l.Ordered) (c : Call) :
    ∀ tallies ∈ l.handedBy c, KeyedList.Sorted tallies := by
  intro tallies hmem
  cases c with
  | record task key first span => cases hmem
  | stats key => cases hmem
  | take =>
    obtain rfl := List.mem_singleton.mp hmem
    cases l with
    | counting entries => exact h
    | spoiled => exact List.Pairwise.nil

theorem call_spoiled (c : Call) : call .spoiled c = .spoiled := by
  cases c with
  | record task key first span => cases first <;> rfl
  | stats key => rfl
  | take => rfl

/-- A call moves amounts from the ledger to what is handed out, and adds a task where it records
one. -/
theorem amounts_call (q : Quantity) (h : l.Ordered) (hkept : l.call c ≠ .spoiled)
    (key : Fragment.Key) (kind : OperatorKind) :
    totalOf (amountAt q key kind) (l.handedBy c) + amountOf q kind ((l.call c).stats key) =
      amountOf q kind (l.stats key) + totalOf q.ofTask (c.span? key kind).toList := by
  cases c with
  | record task key' first span =>
    have hamount := (l.recording task key' first span).amountOf q h hkept key kind
    by_cases hplace : key = key' ∧ first = some kind
    · simpa [handedBy, call, Call.span?, hplace] using hamount
    · simpa [handedBy, call, Call.span?, hplace] using hamount
  | stats key' => simp [handedBy, call, Call.span?]
  | take =>
    cases l with
    | counting entries =>
      have hempty : amountOf q kind ((counting []).stats key) = 0 := rfl
      simp [handedBy, call, take, amountAt, hempty, Call.span?]
    | spoiled => exact absurd rfl hkept

/-! ## Courses of calls -/

theorem after_spoiled (calls : List Call) : after .spoiled calls = .spoiled := by
  induction calls with
  | nil => rfl
  | cons c rest ih =>
    have hstep : after .spoiled (c :: rest) = after (call .spoiled c) rest := rfl
    rw [hstep, call_spoiled, ih]

/-- Every key is handed out once at a time, in the order of the keys. -/
theorem sorted_handed (h : l.Ordered) (calls : List Call) :
    ∀ tallies ∈ l.handed calls, KeyedList.Sorted tallies := by
  induction calls generalizing l with
  | nil =>
    intro tallies hmem
    cases hmem
  | cons c rest ih =>
    intro tallies hmem
    rcases List.mem_append.mp hmem with hfirst | hrest
    · exact sorted_handedBy h c tallies hfirst
    · exact ih (ordered_call h c) tallies hrest

/-- What has been handed out and what the ledger shows is what it showed and what was recorded. -/
theorem amounts_after (q : Quantity) (h : l.Ordered) (hkept : l.after calls ≠ .spoiled)
    (key : Fragment.Key) (kind : OperatorKind) :
    totalOf (amountAt q key kind) (l.handed calls) + amountOf q kind ((l.after calls).stats key) =
      amountOf q kind (l.stats key) + totalOf q.ofTask (calls.filterMap (Call.span? key kind)) := by
  induction calls generalizing l with
  | nil => simp [handed, after]
  | cons c rest ih =>
    -- A ledger that is not spoiled in the end has not been spoiled on the way.
    have hkept' : (l.call c).after rest ≠ .spoiled := hkept
    have hfirst : l.call c ≠ .spoiled := by
      intro hspoiled
      rw [hspoiled] at hkept'
      exact hkept' (after_spoiled rest)
    have hone := amounts_call q h hfirst key kind
    have hrest := ih (ordered_call h c) hkept'
    have hspans : (c :: rest).filterMap (Call.span? key kind) =
        (c.span? key kind).toList ++ rest.filterMap (Call.span? key kind) := by
      cases hspan : c.span? key kind with
      | none => rw [List.filterMap_cons_none hspan, Option.toList_none, List.nil_append]
      | some span => rw [List.filterMap_cons_some hspan, Option.toList_some, List.singleton_append]
    calc totalOf (amountAt q key kind) (l.handed (c :: rest)) +
          amountOf q kind ((l.after (c :: rest)).stats key)
        = totalOf (amountAt q key kind) (l.handedBy c) +
            (totalOf (amountAt q key kind) ((l.call c).handed rest) +
              amountOf q kind (((l.call c).after rest).stats key)) := by
          rw [handed, totalOf_append, Nat.add_assoc]
          rfl
      _ = totalOf (amountAt q key kind) (l.handedBy c) + amountOf q kind ((l.call c).stats key) +
            totalOf q.ofTask (rest.filterMap (Call.span? key kind)) := by
          rw [hrest, Nat.add_assoc]
      _ = amountOf q kind (l.stats key) +
            totalOf q.ofTask ((c :: rest).filterMap (Call.span? key kind)) := by
          rw [hone, hspans, totalOf_append, Nat.add_assoc]

/-- The tasks that are recorded for a key and a kind are as many as their times. -/
theorem length_spans (key : Fragment.Key) (kind : OperatorKind) (calls : List Call) :
    (calls.filterMap (Call.span? key kind)).length = calls.countP (Call.counts key kind) := by
  have hcounts : ∀ c : Call, (c.span? key kind).isSome = c.counts key kind := by
    intro c
    cases c with
    | record task key' first span =>
      by_cases hplace : key = key' ∧ first = some kind
      · simp [Call.counts, Call.span?, hplace]
      · rw [Call.counts, Call.span?, if_neg hplace]
        simpa using hplace
    | stats key' => rfl
    | take => rfl
  rw [List.length_filterMap_eq_countP]
  exact congrArg (calls.countP ·) (funext hcounts)

/-- What has been handed out and what the ledger shows counts what it counted and what was
recorded. -/
theorem counts_after (h : l.Ordered) (hkept : l.after calls ≠ .spoiled) (key : Fragment.Key)
    (kind : OperatorKind) :
    totalOf (countAt key kind) (l.handed calls) + countOf kind ((l.after calls).stats key) =
      countOf kind (l.stats key) + calls.countP (Call.counts key kind) := by
  rw [← length_spans, ← totalOf_number]
  exact amounts_after .number h hkept key kind

/-- A ledger that starts empty never shows a count above the number of its calls. -/
theorem countOf_after_le (calls : List Call) (key : Fragment.Key) (kind : OperatorKind) :
    countOf kind ((empty.after calls).stats key) ≤ calls.length := by
  by_cases hkept : empty.after calls = .spoiled
  · rw [hkept]
    exact Nat.zero_le _
  · have hcounts := counts_after (l := empty) List.Pairwise.nil hkept key kind
    have hnone : countOf kind (empty.stats key) = 0 := rfl
    have hcalls : calls.countP (Call.counts key kind) ≤ calls.length := List.countP_le_length
    omega

end Ledger
end SeriesExec
