import SeriesExec.Duration.Basic
import SeriesExec.Operator
import SeriesExec.Topology.Fragment

/-!
# Ledger — how often and how long each part of the data was used

Executed tasks are counted under the key of their fragment and the kind of their first operator.
This file defines:

* `Tally` — a number of tasks and their summed time;
* `Ledger` — the tallies by key and kind, in the order of both;
* `Ledger.record` — counting a task; a sum that is too long spoils the ledger for ever;
* `Ledger.stats` and `Ledger.take` — reading the tallies, the latter starting over.
-/

namespace SeriesExec

/-- A number of tasks and the time they took together.  The number is kept in a word of 64 bits.  It
never exceeds the number of calls that the ledger has had (`Ledger.countOf_after_le`), so it cannot
get out of the word before there have been `2 ^ 64` of them. -/
structure Tally where
  count : Nat
  span : Duration
  deriving DecidableEq, Repr, Inhabited

/-- The tallies of one fragment key, by kind of operator. -/
abbrev KindTallies := List (OperatorKind × Tally)

/-- The tallies of all tasks so far; a spoiled ledger takes and shows nothing any more. -/
inductive Ledger where
  | counting (entries : List (Fragment.Key × KindTallies))
  | spoiled
  deriving DecidableEq, Inhabited

namespace Ledger

def empty : Ledger := .counting []

/-- How an attempt to count a task ended. -/
inductive Recorded where
  | counted
  | refused (f : Fault)
  /-- The summed time is too long; the ledger is spoiled. -/
  | overflow
  deriving DecidableEq, Inhabited

/-- The tally at a key and a kind. -/
def tally (entries : List (Fragment.Key × KindTallies)) (key : Fragment.Key)
    (kind : OperatorKind) : Tally :=
  ((KeyedList.find? key entries).bind (KeyedList.find? kind)).getD ⟨0, Duration.zero⟩

/-- Counts a task, named for an error, on a fragment with this key. -/
def record (l : Ledger) (task : TaskId) (key : Fragment.Key) (first : Option OperatorKind)
    (span : Duration) : Ledger × Recorded :=
  match first with
  | none => (l, .refused (.nothingToCount task))
  | some kind =>
    match l with
    | .spoiled => (.spoiled, .refused .ledgerPoisoned)
    | .counting entries =>
      let old := tally entries key kind
      match old.span.add? span with
      -- The sum panics while the tallies are locked, and nobody gets at them any more.
      | none => (.spoiled, .overflow)
      | some total =>
        let put := KeyedList.insert kind ⟨old.count + 1, total⟩
        (.counting (KeyedList.update key (fun kinds => put (kinds.getD [])) entries), .counted)

/-- The tallies of one key. -/
def stats (l : Ledger) (key : Fragment.Key) : KindTallies :=
  match l with
  | .spoiled => []
  | .counting entries => (KeyedList.find? key entries).getD []

/-- All tallies, and the ledger without them. -/
def take (l : Ledger) : Ledger × List (Fragment.Key × KindTallies) :=
  match l with
  | .spoiled => (.spoiled, [])
  | .counting entries => (.counting [], entries)

end Ledger
end SeriesExec
