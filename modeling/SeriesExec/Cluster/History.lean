import SeriesExec.Cluster.Request
import SeriesExec.Cluster.Step

/-!
# Histories — what can happen to a cluster

A history is a row of events, each of them a request from outside or a move of a loop or a worker.
The moves come in any order that the states allow, and requests come in between at any time, so a
statement about all histories is one about all interleavings.  This file defines:

* `Cluster.Event` — a request or a move;
* `Cluster.after?` — the cluster after an event, if it can happen;
* `Cluster.run?` — the cluster after a history, if it can happen;
* `Cluster.IsSettled` — neither a loop nor a worker can move.

Main statement: two histories can be joined exactly when the second can follow the first
(`run?_append`).
-/

namespace SeriesExec
namespace Cluster

/-- What can happen to a cluster. -/
inductive Event where
  | asked (r : Request)
  | moved (s : Step)
  deriving Inhabited

variable [PatternLibrary]

/-- The cluster after an event.  A request can always be made, a move has to be possible. -/
def after? (c : Cluster) : Event → Option Cluster
  | .asked r => some (c.handle r).1
  | .moved s => c.step? s

/-- The cluster after a history. -/
def run? (c : Cluster) : List Event → Option Cluster
  | [] => some c
  | e :: rest => (c.after? e).bind fun c' => c'.run? rest

/-- No move is possible. -/
def IsSettled (c : Cluster) : Prop :=
  ∀ s : Step, c.step? s = none

theorem run?_append (c : Cluster) (first second : List Event) :
    c.run? (first ++ second) = (c.run? first).bind fun c' => c'.run? second := by
  induction first generalizing c with
  | nil => rfl
  | cons e rest ih => simp [run?, ih, Option.bind_assoc]

theorem run?_snoc {c c' : Cluster} {events : List Event} {e : Event} :
    c.run? (events ++ [e]) = some c' ↔
      ∃ c₁, c.run? events = some c₁ ∧ c₁.after? e = some c' := by
  simp [run?_append, run?, Option.bind_eq_some_iff]

end Cluster
end SeriesExec
