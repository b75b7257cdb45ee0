import SeriesExec.Queue

/-!
# Pool — a fixed number of workers

Jobs start in the order in which they were submitted, at most as many at a time as there are
workers.  A job may wait at a gate for a permit, and it may end in a panic, which costs its worker
nothing.  This file defines:

* `JobKind` — how a job behaves;
* `Pool` — the workers with their jobs, and what has started and finished so far;
* `Pool.submit`, `Pool.openGate` and `Pool.drop` — the requests, each with everything that follows
  from it until no job can move.
-/

namespace SeriesExec

/-- How a job behaves. -/
structure JobKind where
  /-- Whether it waits for a permit once it has started. -/
  gated : Bool
  panics : Bool
  deriving DecidableEq, Repr, Inhabited

/-- A job is the position at which it was submitted. -/
abbrev JobId := Nat

/-- A submitted job. -/
structure Job where
  id : JobId
  kind : JobKind
  deriving DecidableEq, Repr, Inhabited

/-- Workers that share one queue of jobs and one gate. -/
structure Pool where
  size : Nat
  size_pos : 0 < size
  submitted : Nat
  waiting : Queue Job
  /-- The jobs that wait at the gate, or were let through and have not gone on yet. -/
  running : List Job
  /-- Permits that no job has taken. -/
  permits : Nat
  started : List JobId
  finished : List JobId
  /-- Whether the workers have been told to stop. -/
  dropped : Bool
  /-- Whether all workers have stopped. -/
  stopped : Bool

namespace Pool

/-- A pool without jobs; there is always at least one worker. -/
def new (size : Nat) : Pool where
  size := max size 1
  size_pos := by omega
  submitted := 0
  waiting := Queue.empty
  running := []
  permits := 0
  started := []
  finished := []
  dropped := false
  stopped := false

/-- The pool after a job has gone through to its end. -/
def finish (p : Pool) (j : Job) : Pool :=
  if j.kind.panics then p else { p with finished := p.finished ++ [j.id] }

/-- The pool after a worker has taken a job and run it as far as it goes. -/
def start (p : Pool) (j : Job) : Pool :=
  let q := { p with started := p.started ++ [j.id] }
  if j.kind.gated then
    if q.permits = 0 then { q with running := q.running ++ [j] }
    else { q with permits := q.permits - 1 }.finish j
  else q.finish j

/-- The free workers take the first waiting jobs, as far as there are both. -/
def startWaiting (p : Pool) : List Job → Pool
  | [] => { p with waiting := Queue.empty }
  | j :: rest =>
    if p.running.length < p.size then startWaiting (p.start j) rest
    else { p with waiting := ⟨j :: rest⟩ }

/-- The free workers take waiting jobs until there are none of the one or the other. -/
def drain (p : Pool) : Pool :=
  p.startWaiting p.waiting.items

/-- Submits one job. -/
def enqueue (p : Pool) (kind : JobKind) : Pool :=
  { p with
    submitted := p.submitted + 1
    waiting := p.waiting.push ⟨p.submitted, kind⟩ }

/-- Submits jobs.  Those that a dropped pool is given are lost. -/
def submit (p : Pool) (kinds : List JobKind) : Pool :=
  let q := kinds.foldl enqueue p
  if q.dropped then q else q.drain

/-- Lets a job through the gate; its worker then goes on with the waiting jobs. -/
def pass (p : Pool) (j : Job) : Pool :=
  ({ p with running := p.running.erase j }.finish j).drain

/-- Adds permits, which the jobs at the gate take in the order in which they came. -/
def openGate (p : Pool) (n : Nat) : Pool :=
  let admitted := p.running.take n
  admitted.foldl pass { p with permits := p.permits + (n - admitted.length) }

/-- Stops the workers for ever; running jobs are given up. -/
def drop (p : Pool) : Pool :=
  { p with dropped := true, stopped := true, running := [] }

/-- How many jobs no worker has taken; a dropped pool has no queue. -/
def queueLength? (p : Pool) : Option Nat :=
  if p.dropped then none else some p.waiting.size

end Pool
end SeriesExec
