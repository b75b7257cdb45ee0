import SeriesExec.Cluster.History

/-!
# Settling — moving until nothing moves

After a request the loops and workers move in a fixed order until none of them can: whoever was
given something to do first goes first, and goes on as long as it can.  This file defines:

* `Cluster.Actor` — who can move;
* `Cluster.candidates` — the moves of an actor, with a clock that stands still;
* `Cluster.Turn` — a cluster with an agenda, the actors that are to move next;
* `Cluster.Turn.next?` — the next move in this order;
* `Cluster.settle` — all moves, of which there are at most as many as there is work.

Main statement: settling is a history of moves (`exists_run?_settle`), so what holds after every
history holds after settling.
-/

namespace SeriesExec
namespace Cluster

/-- What can move on its own. -/
inductive Actor where
  | loop (unit : UnitId)
  /-- The idle workers of an engine. -/
  | pool (engine : EngineId)
  /-- The worker that is busy with a delivery. -/
  | worker (delivery : Nat)
  | memoryLoop
  /-- The idle workers for memory tasks. -/
  | memoryPool
  | memoryWorker (task : TaskId)
  deriving DecidableEq, Repr, Inhabited

/-- Whether the time for looking for an engine has passed as soon as it has begun. -/
def givesUpAtOnce (c : Cluster) : Bool :=
  c.config.pollTimeout.any Duration.isZero

/-- The moves that an actor tries, in this order. -/
def candidates (c : Cluster) : Actor → List Step
  | .loop u =>
    if c.givesUpAtOnce then [.resolve u, .giveUp u, .dispatch u] else [.resolve u, .dispatch u]
  | .pool e => [.start e]
  | .worker d => [.complete d Duration.zero]
  | .memoryLoop => [.admitMemory]
  | .memoryPool => [.startMemory]
  | .memoryWorker t => [.runMemory t Duration.zero]

/-! ## Who has something to do -/

/-- The loops that have a delivery with at least this number, in the order of the numbers. -/
def loopsFrom (c : Cluster) (first : Nat) : List Actor :=
  (List.range' first (c.accepted - first)).filterMap fun d =>
    (c.units.find? fun l => l.queue.items.any fun e => e.id == d).map fun l => .loop l.id

/-- Everybody who could have something to do: first the loops that look for an engine, then those
that have deliveries. -/
def actors (c : Cluster) : List Actor :=
  (c.units.filter fun l => l.phase == .seeking).map (fun l => .loop l.id) ++ c.loopsFrom 0 ++
    c.engines.map (fun e => .pool e.1) ++ c.running.map (fun r => .worker r.delivery.id) ++
    [.memoryLoop, .memoryPool] ++ c.memory.running.map .memoryWorker

/-- Whether an engine has as many workers as are busy. -/
def isFull (c : Cluster) (e : EngineId) : Bool :=
  (c.engine? e).any fun s => decide (s.workers ≤ c.busy e)

def isMemoryFull (c : Cluster) : Bool :=
  decide (c.memory.workers ≤ c.memory.running.length)

/-- The engine of a unit. -/
def engineOfUnit? (c : Cluster) (u : UnitId) : Option EngineId :=
  (c.unit? u).map UnitLoop.engine

/-- The engine whose worker is busy with a delivery. -/
def engineOfRun? (c : Cluster) (d : Nat) : Option EngineId :=
  (c.running.find? fun r => r.delivery.id == d).map Run.engine

/-- Who is given something to do by a move, in the order in which it happens.  A worker that takes a
job first leaves the queue to the next idle worker; a job that ends may hand a follower to the
memory stage, and then copies to units. -/
def given (before after : Cluster) : Step → List Actor
  | .resolve _ => []
  | .giveUp _ => []
  | .dispatch u =>
    ((before.engineOfUnit? u).map .pool).toList ++
      if before.memory.queue.size < after.memory.queue.size then [.memoryLoop] else []
  | .start e => if after.isFull e then [] else [.pool e]
  | .complete _ _ =>
    (if before.memory.queue.size < after.memory.queue.size then [.memoryLoop] else []) ++
      after.loopsFrom before.accepted
  | .admitMemory => [.memoryPool]
  | .startMemory => if after.isMemoryFull then [] else [.memoryPool]
  | .runMemory _ _ => []

/-- Who goes on right after a move: a loop with its queue, a worker with the job it has taken, and a
worker that has ended its job with the next one, unless another worker is idle and does that. -/
def goesOn (before after : Cluster) : Step → List Actor
  | .resolve u => [.loop u]
  | .giveUp u => [.loop u]
  | .dispatch u => [.loop u]
  | .start _ => (after.running.getLast?.map fun r => .worker r.delivery.id).toList
  | .complete d _ =>
    match before.engineOfRun? d with
    | some e => if before.isFull e then [.pool e] else []
    | none => []
  | .admitMemory => [.memoryLoop]
  | .startMemory => (after.memory.running.getLast?.map .memoryWorker).toList
  | .runMemory _ _ =>
    if before.memory.running.length ≤ after.memory.running.length then
      (after.memory.running.getLast?.map .memoryWorker).toList
    else if before.isMemoryFull then [.memoryPool]
    else []

/-! ## Turns -/

/-- A cluster, and the actors that are to move next. -/
structure Turn where
  cluster : Cluster
  agenda : List Actor

variable [PatternLibrary]

namespace Turn

/-- The agenda with further actors at its end; one that is on it already keeps its place. -/
def schedule (agenda more : List Actor) : List Actor :=
  more.foldl (fun l a => if l.contains a then l else l ++ [a]) agenda

/-- The turn after a move, if the move is possible; `rest` is the agenda behind its actor. -/
def perform (c : Cluster) (rest : List Actor) (s : Step) : Option Turn :=
  -- Whoever goes on moves before the rest of the agenda, whoever was given something after it.
  (c.step? s).map fun c' => ⟨c', goesOn c c' s ++ schedule rest (given c c' s)⟩

/-- The turn after the first possible move of the listed actors. -/
def pick (c : Cluster) : List Actor → Option Turn
  | [] => none
  | a :: rest =>
    match (c.candidates a).findSome? (perform c rest) with
    | some t => some t
    | none => pick c rest

/-- The turn after the next move, if anything can move. -/
def next? (t : Turn) : Option Turn :=
  -- Those who are not on the agenda move only when nobody on it can.
  (pick t.cluster t.agenda).or (pick t.cluster t.cluster.actors)

/-- The cluster after at most this many moves. -/
def run : Nat → Turn → Cluster
  | 0, t => t.cluster
  | n + 1, t =>
    match t.next? with
    | some t' => run n t'
    | none => t.cluster

end Turn

/-- The cluster once nothing moves any more. -/
def settle (c : Cluster) : Cluster :=
  Turn.run c.work ⟨c, c.actors⟩

/-! ## Settling as a history -/

namespace Turn

theorem step?_of_perform {c : Cluster} {rest : List Actor} {s : Step} {t : Turn}
    (h : perform c rest s = some t) : c.step? s = some t.cluster := by
  obtain ⟨c', hstep, rfl⟩ := Option.map_eq_some_iff.mp h
  exact hstep

theorem exists_step?_of_pick {c : Cluster} {agenda : List Actor} {t : Turn}
    (h : pick c agenda = some t) : ∃ s, c.step? s = some t.cluster := by
  induction agenda with
  | nil => cases h
  | cons a rest ih =>
    unfold pick at h
    split at h
    · rename_i t' hfound
      injection h with h
      subst h
      obtain ⟨s, _, hs⟩ := List.exists_of_findSome?_eq_some hfound
      exact ⟨s, step?_of_perform hs⟩
    · exact ih h

theorem exists_step?_of_next? {t t' : Turn} (h : t.next? = some t') :
    ∃ s, t.cluster.step? s = some t'.cluster := by
  rcases Option.or_eq_some_iff.mp h with h | ⟨_, h⟩ <;> exact exists_step?_of_pick h

theorem exists_run?_run (n : Nat) (t : Turn) :
    ∃ moves : List Step, t.cluster.run? (moves.map .moved) = some (run n t) := by
  induction n generalizing t with
  | zero => exact ⟨[], rfl⟩
  | succ n ih =>
    unfold run
    split
    · rename_i t' hnext
      obtain ⟨s, hs⟩ := exists_step?_of_next? hnext
      obtain ⟨moves, hmoves⟩ := ih t'
      exact ⟨s :: moves, by simp [run?, after?, hs, hmoves]⟩
    · exact ⟨[], rfl⟩

end Turn

/-- A cluster that settles makes moves and nothing else. -/
theorem exists_run?_settle (c : Cluster) :
    ∃ moves : List Step, c.run? (moves.map .moved) = some c.settle :=
  Turn.exists_run?_run c.work ⟨c, c.actors⟩

end Cluster
end SeriesExec
