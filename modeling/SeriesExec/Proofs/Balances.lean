import Mathlib.Data.List.Basic
import SeriesExec.Proofs.Accounts

/-!
# Balances — what a ledger hands out is what it was told

The answers to the calls on a ledger say which tasks it counted.  This file defines, in the
namespace `Ledger`:

* `Ledger.answers` — what some calls are answered, one after the other;
* `Ledger.recordedSpans` — the times of the tasks that were counted at a key and a kind;
* `Ledger.Tidy` — there is one place for each key and kind, and only for what was counted;
* `Ledger.timeOf` and `Ledger.timeAt` — the time beside `countOf` and `countAt`.

Main statement: over any calls the takings and what is left add up to the tasks that were counted,
until a sum becomes too long, after which nothing is counted or shown any more
(`recorded_is_handed_out`).
-/

namespace SeriesExec
namespace Ledger

/-- What a call is answered. -/
inductive Answer where
  | recorded (r : Recorded)
  | tallies (kinds : KindTallies)
  | taken (entries : List (Fragment.Key × KindTallies))
  deriving DecidableEq

variable {l : Ledger} {c : Call} {calls : List Call} {key : Fragment.Key} {kind : OperatorKind}
  {entries : List (Fragment.Key × KindTallies)}

def answer (l : Ledger) : Call → Answer
  | .record task key first span => .recorded (l.record task key first span).2
  | .stats key => .tallies (l.stats key)
  | .take => .taken l.take.2

/-- The answers to some calls, in their order. -/
def answers (l : Ledger) : List Call → List Answer
  | [] => []
  | c :: rest => l.answer c :: (l.call c).answers rest

/-- The time that is counted at a key and a kind by a call with this answer. -/
def countedSpan? (key : Fragment.Key) (kind : OperatorKind) (c : Call) : Answer → Option Duration
  | .recorded .counted => c.span? key kind
  | _ => none

/-- The times of the tasks that some calls counted at a key and a kind. -/
def recordedSpans (l : Ledger) (key : Fragment.Key) (kind : OperatorKind) (calls : List Call) :
    List Duration :=
  (calls.zip (l.answers calls)).filterMap fun asked => countedSpan? key kind asked.1 asked.2

/-- The time of one kind among the tallies of a key, in nanoseconds. -/
def timeOf (kind : OperatorKind) (kinds : KindTallies) : Nat :=
  ((KeyedList.find? kind kinds).map fun t => t.span.nanos).getD 0

/-- The time at a key and a kind among tallies that have been handed out. -/
def timeAt (key : Fragment.Key) (kind : OperatorKind)
    (tallies : List (Fragment.Key × KindTallies)) : Nat :=
  timeOf kind ((counting tallies).stats key)

/-- The call only looks. -/
def Call.isLook : Call → Bool
  | .stats _ => true
  | _ => false

/-- The answer is to a call that only looks. -/
def Answer.isLook : Answer → Bool
  | .tallies _ => true
  | _ => false

/-! ## One call -/

/-- A task is counted if its time still fits, and makes a sum too long if not. -/
theorem answer_record (entries : List (Fragment.Key × KindTallies)) (task : TaskId)
    (key : Fragment.Key) (kind : OperatorKind) (span : Duration) :
    ((counting entries).record task key (some kind) span).2 =
      if timeOf kind ((counting entries).stats key) + span.nanos < UInt64.size * 1000000000 then
        .counted
      else .overflow := by
  have htime : timeOf kind ((counting entries).stats key) =
      (tally entries key kind).span.nanos := amount_tally .time entries key kind
  rw [htime, record]
  dsimp only
  rw [Duration.add?, Duration.ofNanos?]
  split <;> split <;> simp_all

/-- A ledger that counts is spoiled by a call exactly if the answer says so. -/
theorem call_eq_spoiled_iff (h : l ≠ .spoiled) (c : Call) :
    l.call c = .spoiled ↔ l.answer c = .recorded .overflow := by
  cases l with
  | spoiled => exact absurd rfl h
  | counting entries =>
    cases c with
    | record task key first span =>
      cases first with
      | none => simp [call, answer, record]
      | some kind =>
        simp only [call, answer, record]
        split <;> simp
    | stats key => simp [call, answer]
    | take => simp [call, answer, take]

/-- As long as a ledger is not spoiled, every task with an operator is counted. -/
theorem countedSpan?_answer (hkept : l.call c ≠ .spoiled) (key : Fragment.Key)
    (kind : OperatorKind) : countedSpan? key kind c (l.answer c) = c.span? key kind := by
  cases c with
  | record task key' first span =>
    cases first with
    | none => simp [answer, record, countedSpan?, Call.span?]
    | some kind' =>
      cases l with
      | spoiled => exact absurd rfl hkept
      | counting entries =>
        simp only [call, record] at hkept
        simp only [answer, record]
        split at hkept
        · exact absurd rfl hkept
        · rfl
  | stats key' => rfl
  | take => rfl

/-! ## The shape of the entries -/

/-- The tallies of a key: their kinds ascend, there are some, and each counts a task. -/
structure Filled (kinds : KindTallies) : Prop where
  sorted : KeyedList.Sorted kinds
  nonempty : kinds ≠ []
  counts : ∀ e ∈ kinds, 0 < e.2.count

/-- The keys ascend, and every key has tallies. -/
structure Tidy (entries : List (Fragment.Key × KindTallies)) : Prop where
  sorted : KeyedList.Sorted entries
  filled : ∀ e ∈ entries, Filled e.2

theorem Tidy.nil : Tidy [] where
  sorted := List.Pairwise.nil
  filled := by
    intro e he
    cases he

/-- One more tally that counts a task leaves the tallies of a key in order. -/
theorem filled_insert {kinds : KindTallies} (hsorted : KeyedList.Sorted kinds)
    (hcounts : ∀ e ∈ kinds, 0 < e.2.count) (kind : OperatorKind) {t : Tally} (ht : 0 < t.count) :
    Filled (KeyedList.insert kind t kinds) where
  sorted := KeyedList.sorted_update _ _ hsorted
  nonempty := KeyedList.update_ne_nil _ _ _
  counts := by
    intro e he
    rcases KeyedList.mem_update hsorted he with rfl | hold
    · exact ht
    · exact hcounts e hold

theorem Tidy.counted (h : Tidy entries) (key : Fragment.Key) (kind : OperatorKind)
    (total : Duration) : Tidy (counted entries key kind total) where
  sorted := KeyedList.sorted_update _ _ h.sorted
  filled := by
    intro e he
    rcases KeyedList.mem_update h.sorted he with rfl | hold
    · cases hkinds : KeyedList.find? key entries with
      | none => exact filled_insert List.Pairwise.nil (fun e he => by cases he) kind (by simp)
      | some kinds =>
        have hfilled := h.filled _ (KeyedList.mem_of_find? hkinds)
        exact filled_insert hfilled.sorted hfilled.counts kind (by simp)
    · exact h.filled e hold

theorem tidy_call (h : Tidy l.take.2) (c : Call) : Tidy (l.call c).take.2 := by
  cases c with
  | record task key first span =>
    have hrecording := l.recording task key first span
    rw [call]
    generalize (l.record task key first span).1 = l' at hrecording ⊢
    cases hrecording with
    | refused => exact h
    | spoiled kind => exact h
    | counted entries kind total _ => exact h.counted key kind total
    | overflowed entries kind _ => exact Tidy.nil
  | stats key => exact h
  | take => cases l <;> exact Tidy.nil

/-! ## Courses of calls -/

theorem tidy_after (h : Tidy l.take.2) (calls : List Call) : Tidy (l.after calls).take.2 := by
  induction calls generalizing l with
  | nil => exact h
  | cons c rest ih => exact ih (tidy_call h c)

/-- A ledger is spoiled in the end exactly if some sum became too long on the way. -/
theorem after_eq_spoiled_iff (h : l ≠ .spoiled) (calls : List Call) :
    l.after calls = .spoiled ↔ .recorded .overflow ∈ l.answers calls := by
  induction calls generalizing l with
  | nil => simpa [after, answers] using h
  | cons c rest ih =>
    have hstep : l.after (c :: rest) = (l.call c).after rest := rfl
    rw [hstep, answers, List.mem_cons]
    by_cases hspoiled : l.call c = .spoiled
    · have hanswer := (call_eq_spoiled_iff h c).mp hspoiled
      rw [hspoiled, after_spoiled]
      exact iff_of_true rfl (.inl hanswer.symm)
    · have hanswer : l.answer c ≠ .recorded .overflow := fun heq =>
        hspoiled ((call_eq_spoiled_iff h c).mpr heq)
      rw [ih hspoiled]
      exact ⟨.inr, fun hmem => hmem.resolve_left fun heq => hanswer heq.symm⟩

/-- As long as a ledger is not spoiled, the tasks that it counts are those it is told about. -/
theorem recordedSpans_of_kept (hkept : l.after calls ≠ .spoiled) (key : Fragment.Key)
    (kind : OperatorKind) :
    l.recordedSpans key kind calls = calls.filterMap (Call.span? key kind) := by
  induction calls generalizing l with
  | nil => rfl
  | cons c rest ih =>
    have hkept' : (l.call c).after rest ≠ .spoiled := hkept
    have hfirst : l.call c ≠ .spoiled := by
      intro hspoiled
      apply hkept'
      rw [hspoiled, after_spoiled]
    have hone := countedSpan?_answer hfirst key kind
    have hrest := ih hkept'
    rw [recordedSpans] at hrest ⊢
    rw [answers, List.zip_cons_cons, List.filterMap_cons, List.filterMap_cons, hone, hrest]

/-- Leaving out the calls that only look leaves the ledger and all other answers as they are. -/
theorem without_looks (l : Ledger) (calls : List Call) :
    l.after (calls.filter fun c => !c.isLook) = l.after calls ∧
      l.answers (calls.filter fun c => !c.isLook) =
        (l.answers calls).filter fun a => !a.isLook := by
  induction calls generalizing l with
  | nil => exact ⟨rfl, rfl⟩
  | cons c rest ih =>
    obtain ⟨hafter, hanswers⟩ := ih (l.call c)
    cases c with
    | record task key first span =>
      exact ⟨hafter, congrArg (l.answer (.record task key first span) :: ·) hanswers⟩
    | stats key => exact ⟨hafter, hanswers⟩
    | take => exact ⟨hafter, congrArg (l.answer .take :: ·) hanswers⟩

/-- A ledger under any calls.  As long as no sum became too long, at every key and kind the takings
so far and what the ledger shows are together as many tasks and as much time as were counted there,
and the next task is counted if its time fits the sum.  After a sum that became too long every task
is refused and nothing is shown or taken any more.  At any time a task without operators is refused
and changes nothing; looking changes neither the ledger nor what later calls are answered; and what
is taken is what was shown, in the order of the keys, and nothing of it stays. -/
theorem recorded_is_handed_out (calls : List Call) :
    let l := empty.after calls
    (.recorded .overflow ∉ empty.answers calls →
      (∀ key kind,
        totalOf (countAt key kind) (empty.handed calls) + countOf kind (l.stats key) =
            (empty.recordedSpans key kind calls).length ∧
          totalOf (timeAt key kind) (empty.handed calls) + timeOf kind (l.stats key) =
            totalOf Duration.nanos (empty.recordedSpans key kind calls)) ∧
      ∀ task key kind span, (l.record task key (some kind) span).2 =
        if timeOf kind (l.stats key) + span.nanos < UInt64.size * 1000000000 then .counted
        else .overflow) ∧
    (.recorded .overflow ∈ empty.answers calls →
      (∀ task key first span, ∃ f, l.record task key first span = (l, .refused f)) ∧
        (∀ key, l.stats key = []) ∧ l.take = (l, [])) ∧
    (∀ task key span, l.record task key none span = (l, .refused (.nothingToCount task))) ∧
    (empty.after (calls.filter fun c => !c.isLook) = l ∧
      empty.answers (calls.filter fun c => !c.isLook) =
        (empty.answers calls).filter fun a => !a.isLook) ∧
    (Tidy l.take.2 ∧ ∀ key, (counting l.take.2).stats key = l.stats key ∧
      l.take.1.stats key = [] ∧ l.take.1.take = (l.take.1, [])) := by
  have hcounting : empty ≠ .spoiled := by
    intro hspoiled
    cases hspoiled
  -- A ledger is spoiled as soon as one sum becomes too long, and stays so: this splits the
  -- histories.
  have hspoiled := after_eq_spoiled_iff hcounting calls
  refine ⟨?_, ?_, ?_, without_looks empty calls, ?_⟩
  · intro hfits
    have hkept : empty.after calls ≠ .spoiled := fun heq => hfits (hspoiled.mp heq)
    constructor
    · intro key kind
      have hordered : empty.Ordered := List.Pairwise.nil
      have hnumber := amounts_after .number hordered hkept key kind
      have htime := amounts_after .time hordered hkept key kind
      rw [recordedSpans_of_kept hkept, ← totalOf_number]
      exact ⟨hnumber.trans (Nat.zero_add _), htime.trans (Nat.zero_add _)⟩
    · intro task key kind span
      cases hl : empty.after calls with
      | spoiled => exact absurd hl hkept
      | counting entries => exact answer_record entries task key kind span
  · intro hlong
    rw [hspoiled.mpr hlong]
    refine ⟨?_, fun key => rfl, rfl⟩
    intro task key first span
    cases first with
    | none => exact ⟨_, rfl⟩
    | some kind => exact ⟨_, rfl⟩
  · intro task key span
    rfl
  · refine ⟨tidy_after (l := empty) Tidy.nil calls, ?_⟩
    intro key
    cases empty.after calls with
    | counting entries => exact ⟨rfl, rfl, rfl⟩
    | spoiled => exact ⟨rfl, rfl, rfl⟩

/-- Tasks on all the data, one of them without operators, and one that makes the time too long. -/
def overlong : List Call :=
  let key : Fragment.Key := (.all, KeyInterval.all)
  let longest : Duration := ⟨UInt64.size * 1000000000 - 1, by decide⟩
  [.record 0 key (some .project) longest, .take, .record 1 key none .zero, .stats key,
    .record 2 key (some .project) (.ofMillis 1), .record 3 key (some .project) longest, .take]

theorem recorded_is_handed_out_sample :
    let key : Fragment.Key := (.all, KeyInterval.all)
    (totalOf (countAt key .project) (empty.handed (overlong.take 5)) +
        countOf .project ((empty.after (overlong.take 5)).stats key) =
      (empty.recordedSpans key .project (overlong.take 5)).length ∧
    (empty.recordedSpans key .project (overlong.take 5)).length = 2) ∧
    (.recorded .overflow ∈ empty.answers overlong ∧
      (empty.after overlong).take = (empty.after overlong, [])) := by
  have hfits : .recorded .overflow ∉ empty.answers (overlong.take 5) := by decide
  have hlong : .recorded .overflow ∈ empty.answers overlong := by decide
  refine ⟨⟨?_, by decide⟩, hlong, ?_⟩
  · exact (((recorded_is_handed_out (overlong.take 5)).1 hfits).1 _ _).1
  · exact ((recorded_is_handed_out overlong).2.1 hlong).2.2

end Ledger
end SeriesExec
