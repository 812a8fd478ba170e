-- SUMMARY: createLifecycle as a state machine: its variables, its suspended async functions and the runners it starts.
import BetterGraphileWorker.Library.Runs
import BetterGraphileWorker.Library.Table

/-!
# Lifecycle

`createLifecycle` shares six variables between async functions. Every await suspends one of them;
what runs between two awaits is one step. The start body is active exactly while `starting` is
set, the stop body while `stopping` is set, and supervise while its run's completion is pending.
-/

namespace BetterGraphileWorker

/-! ## Runners -/

abbrev RunnerId := ℕ

inductive RunnerStatus where
  /-- options.start has not settled. -/
  | launching
  /-- options.start rejected. -/
  | refused
  /-- `asked` once `stop()` was called. -/
  | alive (asked : Bool)
  /-- Its `stop()` resolved, its promise is pending. -/
  | stopped
  /-- Its promise settled. -/
  | ended (failed : Bool)
deriving DecidableEq

/-- Starting or alive. -/
def RunnerStatus.busy : RunnerStatus → Bool
  | .launching | .alive _ => true
  | .refused | .stopped | .ended _ => false

/-- Its `stop()` is called. -/
def RunnerStatus.ask : RunnerStatus → RunnerStatus
  | .alive _ => .alive true
  | status => status

/-- Its `stop()` resolves. -/
def RunnerStatus.halt (status : RunnerStatus) : RunnerStatus := if status.busy then .stopped else status

@[simp] theorem RunnerStatus.busy_ask {status : RunnerStatus} : status.ask.busy = status.busy := by
  cases status <;> rfl

@[simp] theorem RunnerStatus.busy_halt {status : RunnerStatus} : status.halt.busy = false := by
  cases status <;> rfl

/-! ## Suspended functions -/

/-- Where the start body is. -/
inductive Starting where
  | scheduled
  /-- Awaits options.start(false). -/
  | launching (runner : RunnerId)
  /-- Awaits options.release() after a failed start. -/
  | releasing
deriving DecidableEq

/-- Where the stop body is. -/
inductive Stopping where
  | awaitingStart
  | awaitingOnce
  /-- Awaits current.runner.stop(). -/
  | stoppingRunner (runner : RunnerId)
  | awaitingCompletion
  /-- Awaits options.release(). -/
  | releasing
deriving DecidableEq

/-- Where supervise is, with relaunch. -/
inductive Supervise where
  /-- Awaits the promise of the active runner. -/
  | watching (runner : RunnerId)
  /-- Waits before a restart. -/
  | waiting
  /-- Awaits options.start(true). -/
  | relaunching (runner : RunnerId)
  /-- Awaits the stop() of a runner that started after stop() was called. -/
  | stoppingLate (runner : RunnerId)
  /-- The completion has settled. -/
  | settled
deriving DecidableEq

inductive Once where
  | scheduled
  | running
  /-- The operation settled, `finally` has not run. -/
  | finished
deriving DecidableEq

/-- From start() until stop(). -/
structure Run where
  stopped : Bool
  runner : Option RunnerId
  supervise : Supervise

structure LifecycleOptions where
  handleSignals : Bool
  /-- A restart policy is set. -/
  restart : Bool

structure Lifecycle where
  run : Option Run
  starting : Option Starting
  stopping : Option Stopping
  once : Option Once
  /-- The listeners that `removeSignals` removes are set. -/
  removeSignals : Bool
  /-- SIGINT and SIGTERM listener pairs of this lifecycle. -/
  listeners : ℕ
  /-- Calls of start() chained on `stopping`. -/
  queued : ℕ
  /-- Chained calls whose shutdown has resolved. -/
  ready : ℕ
  runners : Table RunnerId RunnerStatus
  nextRunner : RunnerId

/-- What a call returns. -/
inductive CallReply where
  | pending
  | resolved
  | rejected (message : String)
deriving DecidableEq

namespace Lifecycle

def initial : Lifecycle := ⟨none, none, none, none, false, 0, 0, 0, ∅, 0⟩

variable (s : Lifecycle)

/-- `completion` has settled. -/
def completed : Bool := s.run.all fun run => run.supervise = .settled

def cleanupSignals : Lifecycle :=
  if s.removeSignals then { s with removeSignals := false, listeners := s.listeners - 1 } else s

def installSignals : Lifecycle := { s with removeSignals := true, listeners := s.listeners + 1 }

/-- Call options.start. -/
def launch : Lifecycle :=
  { s with runners := s.runners.insert s.nextRunner .launching, nextRunner := s.nextRunner + 1 }

/-- Call a runner's stop(). -/
def askStop (runner : RunnerId) : Lifecycle :=
  { s with runners := s.runners.update runner .ask }

/-- A runner's stop() resolves. -/
def stopRunner (runner : RunnerId) : Lifecycle :=
  { s with runners := s.runners.update runner .halt }

def setSupervise (run : Run) (supervise : Supervise) : Lifecycle :=
  { s with run := some { run with supervise } }

/-! ## Calls -/

def start : Lifecycle × CallReply :=
  match s.stopping with
  | some _ => ({ s with queued := s.queued + 1 }, .pending)
  | none =>
    if s.once.isSome then (s, .rejected "Worker runOnce is in progress")
    else if s.starting.isSome then (s, .pending)
    else if s.run.isSome then (s, .resolved)
    else ({ s with starting := some .scheduled }, .pending)

/-- Stop the current run, if any. -/
def stopCurrent : Lifecycle :=
  match s.run with
  | none => { s with stopping := some .releasing }
  | some run =>
    match run.runner with
    | some runner =>
      { s.askStop runner with
        run := some { run with stopped := true }
        stopping := some (.stoppingRunner runner) }
    | none =>
      { s with run := some { run with stopped := true }, stopping := some .awaitingCompletion }

/-- The stop body, once startup and runOnce() are over. -/
def stopRun : Lifecycle := s.cleanupSignals.stopCurrent

/-- The stop body, once startup is over. -/
def stopOnce : Lifecycle :=
  if s.once.isSome then { s with stopping := some .awaitingOnce } else s.stopRun

def stop : Lifecycle × CallReply :=
  match s.stopping with
  | some _ => (s, .pending)
  | none =>
    if s.starting.isSome then ({ s with stopping := some .awaitingStart }, .pending)
    else (s.stopOnce, .pending)

def runOnce : Lifecycle × CallReply :=
  if s.starting.isSome || s.stopping.isSome || s.run.isSome || s.once.isSome then
    (s, .rejected "Worker is busy")
  else ({ s with once := some .scheduled }, .pending)

/-- `finally` of the stop body: chained starts run once it resolves, and reject with it. -/
def settleStop (ok : Bool) : Lifecycle :=
  { s.cleanupSignals with
    stopping := none
    queued := 0
    ready := if ok then s.ready + s.queued else s.ready }

/-! ## Steps of the start body -/

def startBody (options : LifecycleOptions) : Option Lifecycle :=
  match s.starting with
  | some .scheduled =>
    let s := if options.handleSignals then s.installSignals else s
    some { s.launch with starting := some (.launching s.nextRunner) }
  | _ => none

def startResumed : Option Lifecycle :=
  match s.starting with
  | some (.launching runner) =>
    match s.runners.get? runner with
    | none | some .launching => none
    | some .refused => some { s.cleanupSignals with starting := some .releasing }
    | some _ => some { s with run := some ⟨false, some runner, .watching runner⟩, starting := none }
  | _ => none

/-- The startup fails with its own error, whether or not release() does. -/
def startReleased : Option Lifecycle :=
  match s.starting with
  | some .releasing => some { s with starting := none }
  | _ => none

/-- A start() chained on a shutdown runs. -/
def chained : Option Lifecycle :=
  if s.ready = 0 then none else some { s with ready := s.ready - 1 }.start.1

/-! ## Steps of the stop body -/

def stopResumed : Option Lifecycle :=
  match s.stopping with
  | some .awaitingStart => if s.starting.isNone then some s.stopOnce else none
  | some .awaitingOnce => if s.once.isNone then some s.stopRun else none
  | _ => none

def runnerStopped (ok : Bool) : Option Lifecycle :=
  match s.stopping with
  | some (.stoppingRunner runner) =>
    if ok then some { s.stopRunner runner with stopping := some .awaitingCompletion }
    else some (s.settleStop false)
  | _ => none

def completionSettled : Option Lifecycle :=
  match s.stopping with
  | some .awaitingCompletion =>
    if s.completed then some { s with run := none, stopping := some .releasing } else none
  | _ => none

def released (ok : Bool) : Option Lifecycle :=
  match s.stopping with
  | some .releasing => some (s.settleStop ok)
  | _ => none

/-! ## Steps of supervise -/

/-- The active runner's promise has settled. -/
def superviseResumed (options : LifecycleOptions) : Option Lifecycle :=
  match s.run with
  | some run =>
    match run.supervise with
    | .watching runner =>
      match s.runners.get? runner with
      | some (.ended failed) =>
        if !failed || run.stopped || !options.restart then
          if run.stopped then some (s.setSupervise run .settled)
          else some { s.cleanupSignals with run := none }
        else some (s.setSupervise { run with runner := none } .waiting)
      | _ => none
    | _ => none
  | none => none

/-- The timer of a restart fires, or stop() cuts it short. -/
def waited : Option Lifecycle :=
  match s.run with
  | some run =>
    match run.supervise with
    | .waiting =>
      if run.stopped then some (s.setSupervise run .settled)
      else some (s.launch.setSupervise run (.relaunching s.nextRunner))
    | _ => none
  | none => none

def relaunched : Option Lifecycle :=
  match s.run with
  | some run =>
    match run.supervise with
    | .relaunching runner =>
      match s.runners.get? runner with
      | none | some .launching => none
      | some .refused =>
        if run.stopped then some (s.setSupervise run .settled) else some (s.setSupervise run .waiting)
      | some _ =>
        if run.stopped then some ((s.askStop runner).setSupervise run (.stoppingLate runner))
        else some (s.setSupervise { run with runner := some runner } (.watching runner))
    | _ => none
  | none => none

/-- A rejection rejects `completion`, and stop() ignores that. -/
def lateStopped (ok : Bool) : Option Lifecycle :=
  match s.run with
  | some run =>
    match run.supervise with
    | .stoppingLate runner =>
      some ((if ok then s.stopRunner runner else s).setSupervise run .settled)
    | _ => none
  | none => none

/-! ## Steps of runOnce() -/

def onceResumed : Option Lifecycle :=
  match s.once with
  | some .scheduled => some { s with once := some .running }
  | some .running => some { s with once := some .finished }
  | some .finished => some { s with once := none }
  | none => none

/-! ## Steps of the runners -/

/-- options.start settles. -/
def launched (runner : RunnerId) (ok : Bool) : Option Lifecycle :=
  match s.runners.get? runner with
  | some .launching =>
    some { s with runners := s.runners.insert runner (if ok then .alive false else .refused) }
  | _ => none

/-- A runner's promise settles, asked or not. -/
def ended (runner : RunnerId) (failed : Bool) : Option Lifecycle :=
  match s.runners.get? runner with
  | some (.alive _) | some .stopped =>
    some { s with runners := s.runners.insert runner (.ended failed) }
  | _ => none

end Lifecycle

/-! ## The system -/

inductive LifecycleEvent where
  | start
  | stop
  | runOnce
  /-- SIGINT or SIGTERM. -/
  | signal
  | startBody
  | startResumed
  | startReleased
  | chained
  | stopResumed
  | runnerStopped (ok : Bool)
  | completionSettled
  | released (ok : Bool)
  | superviseResumed
  | waited
  | relaunched
  | lateStopped (ok : Bool)
  | onceResumed
  | launched (runner : RunnerId) (ok : Bool)
  | ended (runner : RunnerId) (failed : Bool)

def Lifecycle.step (options : LifecycleOptions) (s : Lifecycle) : LifecycleEvent → Option Lifecycle
  | .start => some s.start.1
  | .stop => some s.stop.1
  | .runOnce => some s.runOnce.1
  | .signal => if s.listeners = 0 then none else some s.stop.1
  | .startBody => s.startBody options
  | .startResumed => s.startResumed
  | .startReleased => s.startReleased
  | .chained => s.chained
  | .stopResumed => s.stopResumed
  | .runnerStopped ok => s.runnerStopped ok
  | .completionSettled => s.completionSettled
  | .released ok => s.released ok
  | .superviseResumed => s.superviseResumed options
  | .waited => s.waited
  | .relaunched => s.relaunched
  | .lateStopped ok => s.lateStopped ok
  | .onceResumed => s.onceResumed
  | .launched runner ok => s.launched runner ok
  | .ended runner failed => s.ended runner failed

def lifecycle (options : LifecycleOptions) : TransitionSystem Lifecycle LifecycleEvent where
  Init s := s = .initial
  step s e := s.step options e

namespace Lifecycle

variable {s : Lifecycle} {runner id : RunnerId}

/-- A rejected call changes nothing. -/
theorem rejected_unchanged {message : String} :
    (s.start.2 = .rejected message → s.start.1 = s) ∧
      (s.runOnce.2 = .rejected message → s.runOnce.1 = s) := by
  constructor
  · intro h
    cases hstopping : s.stopping with
    | some _ => simp [start, hstopping] at h
    | none =>
      simp only [start, hstopping] at h ⊢
      split
      · rfl
      · split
        · rfl
        · split
          · rfl
          · simp_all
  · intro h
    simp only [runOnce] at h ⊢
    split
    · rfl
    · simp_all

/-! ## What the calls do -/

inductive StartCases (s : Lifecycle) : Lifecycle → Prop where
  | chained (hstopping : s.stopping ≠ none) : StartCases s { s with queued := s.queued + 1 }
  | rejected (honce : s.once ≠ none) : StartCases s s
  | running (hstopping : s.stopping = none) (hup : s.starting ≠ none ∨ s.run ≠ none) : StartCases s s
  | started (hstopping : s.stopping = none) (honce : s.once = none) (hstarting : s.starting = none)
      (hrun : s.run = none) : StartCases s { s with starting := some .scheduled }

theorem start_cases (s : Lifecycle) : StartCases s s.start.1 := by
  unfold start
  split
  · rename_i hstopping
    exact .chained (by simp [hstopping])
  · rename_i hstopping
    split
    · rename_i honce
      exact .rejected (Option.isSome_iff_ne_none.mp honce)
    · split
      · rename_i hstarting
        exact .running hstopping (.inl (Option.isSome_iff_ne_none.mp hstarting))
      · split
        · rename_i hrun
          exact .running hstopping (.inr (Option.isSome_iff_ne_none.mp hrun))
        · rename_i honce hstarting hrun
          rw [Option.not_isSome_iff_eq_none] at honce hstarting hrun
          exact .started hstopping honce hstarting hrun

inductive StopCases (s : Lifecycle) : Lifecycle → Prop where
  | shared (hstopping : s.stopping ≠ none) : StopCases s s
  | startup (hstopping : s.stopping = none) (hstarting : s.starting ≠ none) :
      StopCases s { s with stopping := some .awaitingStart }
  | stops (hstopping : s.stopping = none) (hstarting : s.starting = none) : StopCases s s.stopOnce

theorem stop_cases (s : Lifecycle) : StopCases s s.stop.1 := by
  unfold stop
  split
  · rename_i hstopping
    exact .shared (by simp [hstopping])
  · rename_i hstopping
    split
    · rename_i hstarting
      exact .startup hstopping (Option.isSome_iff_ne_none.mp hstarting)
    · rename_i hstarting
      exact .stops hstopping (Option.not_isSome_iff_eq_none.mp hstarting)

/-! ## Listeners -/

@[simp] theorem cleanupSignals_removeSignals : s.cleanupSignals.removeSignals = false := by
  unfold cleanupSignals
  split
  · rfl
  · rename_i hset
    simpa using hset

@[simp] theorem cleanupSignals_run : s.cleanupSignals.run = s.run := by
  unfold cleanupSignals; split <;> rfl

@[simp] theorem cleanupSignals_starting : s.cleanupSignals.starting = s.starting := by
  unfold cleanupSignals; split <;> rfl

@[simp] theorem cleanupSignals_stopping : s.cleanupSignals.stopping = s.stopping := by
  unfold cleanupSignals; split <;> rfl

@[simp] theorem cleanupSignals_once : s.cleanupSignals.once = s.once := by
  unfold cleanupSignals; split <;> rfl

@[simp] theorem cleanupSignals_queued : s.cleanupSignals.queued = s.queued := by
  unfold cleanupSignals; split <;> rfl

@[simp] theorem cleanupSignals_ready : s.cleanupSignals.ready = s.ready := by
  unfold cleanupSignals; split <;> rfl

@[simp] theorem cleanupSignals_runners : s.cleanupSignals.runners = s.runners := by
  unfold cleanupSignals; split <;> rfl

inductive StopRunCases (s : Lifecycle) : Lifecycle → Prop where
  | idle (hrun : s.run = none) : StopRunCases s { s.cleanupSignals with stopping := some .releasing }
  | restarting {run : Run} (hrun : s.run = some run) (hrunner : run.runner = none) :
      StopRunCases s
        { s.cleanupSignals with
          run := some { run with stopped := true }
          stopping := some .awaitingCompletion }
  | running {run : Run} {runner : RunnerId} (hrun : s.run = some run) (hrunner : run.runner = some runner) :
      StopRunCases s
        { s.cleanupSignals.askStop runner with
          run := some { run with stopped := true }
          stopping := some (.stoppingRunner runner) }

theorem stopRun_cases (s : Lifecycle) : StopRunCases s s.stopRun := by
  unfold stopRun stopCurrent
  split
  · rename_i hrun
    exact .idle (by simpa using hrun)
  · rename_i run hrun
    split
    · rename_i hrunner
      exact .running (by simpa using hrun) hrunner
    · rename_i hrunner
      exact .restarting (by simpa using hrun) hrunner

/-! ## Busy runners -/

/-- The runner is starting or alive. -/
def busy (s : Lifecycle) (id : RunnerId) : Bool := (s.runners.get? id).any RunnerStatus.busy

@[simp] theorem busy_launch : s.launch.busy id = (id = s.nextRunner || s.busy id) := by
  simp only [busy, launch, Table.get?_insert]
  split
  · rename_i hid
    simp [hid, RunnerStatus.busy]
  · rename_i hid
    simp [hid]

@[simp] theorem busy_askStop : (s.askStop runner).busy id = s.busy id := by
  simp only [busy, askStop, Table.get?_update]
  split
  · rename_i hid
    cases hrow : s.runners.get? runner <;> simp [hid, hrow]
  · rfl

@[simp] theorem busy_stopRunner : (s.stopRunner runner).busy id = (id ≠ runner && s.busy id) := by
  simp only [busy, stopRunner, Table.get?_update]
  split
  · rename_i hid
    cases hrow : s.runners.get? runner <;> simp [hid, hrow]
  · rename_i hid
    simp [hid]

end Lifecycle

end BetterGraphileWorker
