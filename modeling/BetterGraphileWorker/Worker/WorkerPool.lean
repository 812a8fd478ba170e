-- SUMMARY: createBetterWorkerPool without restarts: start(), stop(), the cleanup of a failed start and the watchers, over the lifecycles of its workers.
import Mathlib.Data.Fintype.Basic
import BetterGraphileWorker.Worker.Exclusivity

/-!
# Worker pools

A pool calls `start()` and `stop()` of all its workers at once and waits for them with
`Promise.allSettled`. A start() that fails stops all workers before it rejects; one that
succeeds watches every worker's promise and stops all workers when one of them rejects.
A worker is a lifecycle with `restart: false`, and its runners come from `startRunner`.
-/

namespace BetterGraphileWorker

namespace WorkerPool

/-- What a pool start() knows of the start() of one worker. -/
inductive Member where
  /-- It awaits the worker's `starting`. -/
  | starting
  /-- It is chained on the worker's `stopping`. -/
  | queued
  /-- The shutdown it was chained on has resolved. -/
  | ready
  /-- It resolved with this runner running. -/
  | started (runner : Option RunnerId)
  | failed
deriving DecidableEq

/-- `Promise.allSettled` is done with it. -/
def Member.settled : Member → Bool
  | .started _ | .failed => true
  | .starting | .queued | .ready => false

inductive Phase (n : ℕ) where
  /-- Awaits the start() of every worker. -/
  | starting
  /-- A worker failed to start; `stopAll` awaits these workers. -/
  | cleaning (pending : Fin n → Bool)
  | resolved
  | rejected

/-- A call of the pool's start(). -/
structure Start (n : ℕ) where
  members : Fin n → Member
  phase : Phase n

/-- How a worker's `completion` is. -/
inductive Completion where
  | pending
  | resolved
  /-- The runner ended with an error. -/
  | rejected (runner : RunnerId)
deriving DecidableEq

/-- What the promise of a watcher waits for. -/
inductive Awaits where
  /-- `starting.then(() => completion)` -/
  | starting
  | completion
  /-- It rejected, because a runner ended or a startup failed; `stopAll` is about to be called. -/
  | due (runner : Option RunnerId)
deriving DecidableEq

/-- `worker.promise.catch(stopAll)` -/
structure Watcher (n : ℕ) where
  worker : Fin n
  awaits : Awaits
deriving DecidableEq

structure State (n : ℕ) where
  workers : Fin n → Lifecycle
  completions : Fin n → Completion
  starts : Table ℕ (Start n)
  next : ℕ
  watchers : List (Watcher n)

/-- The workers of a pool leave restarts and signals to the pool. -/
def options : LifecycleOptions := ⟨false, false⟩

/-- What awaits the promise that the worker's start() returns. -/
def joined (l : Lifecycle) : Member :=
  if l.stopping.isSome then .queued
  else if l.once.isSome then .failed
  else if l.starting.isSome then .starting
  else
    match l.run with
    | some run => .started run.runner
    | none => .starting

inductive Event (n : ℕ) where
  /-- The pool's start(). -/
  | start
  /-- The pool's stop(). -/
  | stop
  /-- A start() chained on a shutdown of the worker runs. -/
  | chained (call : ℕ) (i : Fin n)
  /-- `Promise.allSettled` of a start() resolves. -/
  | allSettled (call : ℕ)
  /-- The cleanup of a failed start() is over. -/
  | cleaned (call : ℕ)
  /-- A watcher calls `stopAll`. -/
  | watch (w : Watcher n)
  | startBody (i : Fin n)
  | launched (i : Fin n) (runner : RunnerId) (ok : Bool)
  | startResumed (i : Fin n)
  | startReleased (i : Fin n)
  | stopResumed (i : Fin n)
  | runnerStopped (i : Fin n)
  | completionSettled (i : Fin n)
  | released (i : Fin n) (ok : Bool)
  | ended (i : Fin n) (runner : RunnerId) (failed : Bool)
  | superviseResumed (i : Fin n)
deriving DecidableEq

section
variable {n : ℕ}

namespace Start

def setMember (call : Start n) (i : Fin n) (member : Member) : Start n :=
  { call with members := Function.update call.members i member }

/-- What awaits `from` of the worker goes on with `to`. -/
def settle (call : Start n) (i : Fin n) (before after : Member) : Start n :=
  if call.members i = before then call.setMember i after else call

/-- The shutdown of the worker is over. -/
def stopped (call : Start n) (i : Fin n) : Start n :=
  match call.phase with
  | .cleaning pending => { call with phase := .cleaning (Function.update pending i false) }
  | _ => call

end Start

namespace State

variable (s : State n)

def setWorker (i : Fin n) (l : Lifecycle) : State n :=
  { s with workers := Function.update s.workers i l }

def stopAll : State n := { s with workers := fun i => (s.workers i).stop.1 }

def start : State n :=
  { s with
    workers := fun i => (s.workers i).start.1
    starts := s.starts.insert s.next ⟨fun i => joined (s.workers i), .starting⟩
    next := s.next + 1 }

/-- Every start() that awaits `before` of the worker. -/
def settleMembers (i : Fin n) (before after : Member) : State n :=
  { s with starts := s.starts.modify fun _ call => call.settle i before after }

/-- The shutdown of the worker resolves or rejects. -/
def settleShutdown (i : Fin n) (ok : Bool) : State n :=
  { s with
    starts := s.starts.modify fun _ call =>
      (call.settle i .queued (if ok then .ready else .failed)).stopped i }

/-- The watchers of the worker that await `before`; without `after` they are done. -/
def settleWatchers (i : Fin n) (before : Awaits) (after : Option Awaits) : State n :=
  { s with
    watchers := s.watchers.filterMap fun w =>
      if w = ⟨i, before⟩ then after.map (⟨i, ·⟩) else some w }

def setCompletion (i : Fin n) (completion : Completion) : State n :=
  { s with completions := Function.update s.completions i completion }

/-- The watcher that a start() attaches to the worker's current promise. -/
def attach (i : Fin n) : Option (Watcher n) :=
  if (s.workers i).starting.isSome then some ⟨i, .starting⟩
  else
    match s.completions i with
    | .pending => some ⟨i, .completion⟩
    | .resolved => none
    | .rejected runner => some ⟨i, .due (some runner)⟩

end State

/-- Run a start() that was chained on a shutdown; `Lifecycle.chained` without its guard. -/
def resume (l : Lifecycle) : Lifecycle := { l with ready := l.ready - 1 }

def State.exec (s : State n) : Event n → Option (State n)
  | .start => some s.start
  | .stop => some s.stopAll
  | .chained call i =>
    match s.starts.get? call with
    | some c =>
      if c.members i = .ready then
        let l := resume (s.workers i)
        some { s.setWorker i l.start.1 with
          starts := s.starts.insert call (c.setMember i (joined l)) }
      else none
    | none => none
  | .allSettled call =>
    match s.starts.get? call with
    | some ⟨members, .starting⟩ =>
      if ∀ i, (members i).settled then
        if ∃ i, members i = .failed then
          some { s.stopAll with
            starts := s.starts.insert call ⟨members, .cleaning fun _ => true⟩ }
        else
          some { s with
            starts := s.starts.insert call ⟨members, .resolved⟩
            watchers := s.watchers ++ (List.finRange n).filterMap s.attach }
      else none
    | _ => none
  | .cleaned call =>
    match s.starts.get? call with
    | some ⟨members, .cleaning pending⟩ =>
      if ∀ i, pending i = false then
        some { s with starts := s.starts.insert call ⟨members, .rejected⟩ }
      else none
    | _ => none
  | .watch w =>
    match w.awaits with
    | .due _ =>
      if w ∈ s.watchers then some { s.stopAll with watchers := s.watchers.erase w } else none
    | _ => none
  | .startBody i => ((s.workers i).startBody options).map (s.setWorker i)
  | .launched i runner ok => ((s.workers i).launched runner ok).map (s.setWorker i)
  | .startResumed i =>
    match (s.workers i).startResumed with
    | some l =>
      match l.run with
      | some run =>
        some ((((s.setWorker i l).setCompletion i .pending).settleMembers i .starting
          (.started run.runner)).settleWatchers i .starting (some .completion))
      | none => some (s.setWorker i l)
    | none => none
  | .startReleased i =>
    (s.workers i).startReleased.map fun l =>
      ((s.setWorker i l).settleMembers i .starting .failed).settleWatchers i .starting
        (some (.due none))
  | .stopResumed i => (s.workers i).stopResumed.map (s.setWorker i)
  | .runnerStopped i =>
    -- The stop() of `startRunner` resolves once the runner's promise has settled.
    match (s.workers i).stopping with
    | some (.stoppingRunner runner) =>
      match (s.workers i).runners.get? runner with
      | some (.ended _) => ((s.workers i).runnerStopped true).map (s.setWorker i)
      | _ => none
    | _ => none
  | .completionSettled i => (s.workers i).completionSettled.map (s.setWorker i)
  | .released i ok =>
    ((s.workers i).released ok).map fun l => (s.setWorker i l).settleShutdown i ok
  | .ended i runner failed =>
    -- A runner that nobody asked to stop rejects with `WorkerStoppedError`.
    if failed = false ∧ (s.workers i).runners.get? runner ≠ some (.alive true) then none
    else ((s.workers i).ended runner failed).map (s.setWorker i)
  | .superviseResumed i =>
    match (s.workers i).run with
    | some ⟨_, some runner, _⟩ =>
      ((s.workers i).superviseResumed options).map fun l =>
        if (s.workers i).runners.get? runner = some (.ended true) then
          ((s.setWorker i l).setCompletion i (.rejected runner)).settleWatchers i .completion
            (some (.due (some runner)))
        else ((s.setWorker i l).setCompletion i .resolved).settleWatchers i .completion none
    | _ => none

end

/-- A pool of `n` workers. -/
def system (n : ℕ) : TransitionSystem (State n) (Event n) where
  Init s := s = ⟨fun _ => .initial, fun _ => .resolved, ∅, 0, []⟩
  step s e := s.exec e

end WorkerPool

end BetterGraphileWorker
