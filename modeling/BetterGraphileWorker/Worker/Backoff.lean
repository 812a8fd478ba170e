-- SUMMARY: relaunch and wait of the lifecycle: the restart callbacks, the backoff timer and the wake of stop().
import Mathlib.Algebra.Group.Nat.Defs
import BetterGraphileWorker.Worker.Lifecycle

/-!
# Backoff

`relaunch` reports a failure through a callback of the restart policy and then waits. The
callback runs inside `supervise` and may call the lifecycle again; `stop()` wakes the timer
that `current.wake` was last set for. The lifecycle module takes the report and the wait as
one step; here they are two, with the timer between them.
-/

namespace BetterGraphileWorker

/-- What `resolveRestart` accepts, in ms. -/
structure RestartPolicy where
  delay : ℕ
  maxDelay : ℕ
  delay_le : delay ≤ maxDelay
  maxDelay_le : maxDelay ≤ 2147483647

/-- The wait before a restart. -/
def RestartPolicy.backoff (policy : RestartPolicy) (attempt : ℕ) : ℕ :=
  min policy.maxDelay (policy.delay * 2 ^ min (attempt - 1) 30)

/-- The first wait is `delay`, and no wait is longer than a timer can be. -/
theorem RestartPolicy.backoff_bounds (policy : RestartPolicy) (attempt : ℕ) :
    policy.delay ≤ policy.backoff attempt ∧ policy.backoff attempt ≤ 2147483647 := by
  have hgrows : policy.delay ≤ policy.delay * 2 ^ min (attempt - 1) 30 :=
    Nat.le_mul_of_pos_right _ (Nat.two_pow_pos _)
  constructor
  · exact Nat.le_min.mpr ⟨policy.delay_le, hgrows⟩
  · exact Nat.le_trans (Nat.min_le_left _ _) policy.maxDelay_le

/-- A callback of the restart policy. -/
inductive RestartCallback where
  | onStopped
  | onRestartFailed
  | onRestarted
deriving DecidableEq

structure BackoffTimer where
  ms : ℕ
  /-- It fired, or was woken. -/
  resolved : Bool

structure Backoff where
  lifecycle : Lifecycle
  /-- The callback that `supervise` is in. -/
  report : Option RestartCallback
  attempt : ℕ
  /-- The timer that `current.wake` clears; none is set before the first wait of a run. -/
  timer : Option BackoffTimer

inductive BackoffEvent where
  /-- A step of the lifecycle outside of `supervise`. -/
  | lifecycle (e : LifecycleEvent)
  /-- The active runner ended, so many ms after it was started. -/
  | superviseResumed (elapsed : ℕ)
  | relaunched
  /-- The callback returns. -/
  | reported
  | reportThrew
  /-- The delay of the timer is over. -/
  | fired
  | waited

/-- The calls and runner events that may come while a callback runs. -/
def LifecycleEvent.nests : LifecycleEvent → Bool
  | .start | .stop | .runOnce | .signal | .launched _ _ | .ended _ _ => true
  | _ => false

/-- The stop body gets to `current.wake()` in this step. -/
def Lifecycle.wakes (s : Lifecycle) : LifecycleEvent → Bool
  | .stop | .signal => s.stopping.isNone && s.starting.isNone && s.once.isNone
  | .stopResumed =>
    match s.stopping with
    | some .awaitingStart => s.once.isNone
    | some .awaitingOnce => true
    | _ => false
  | _ => false

def Lifecycle.isWaiting (s : Lifecycle) : Bool := s.run.any fun run => run.supervise = .waiting

def Lifecycle.isStopped (s : Lifecycle) : Bool := s.run.any Run.stopped

namespace Backoff

def initial : Backoff := ⟨.initial, none, 0, none⟩

variable (b : Backoff)

def wake : Backoff := { b with timer := b.timer.map fun timer => { timer with resolved := true } }

/-- A new run is supervised from its first attempt on, and its `wake` does nothing. -/
def superviseRun : Backoff := { b with attempt := 0, timer := none }

/-- Call a callback with the number of the next attempt. -/
def reportAttempt (callback : RestartCallback) (attempt : ℕ) : Backoff :=
  { b with report := some callback, attempt := attempt + 1 }

def lifecycleStep (options : LifecycleOptions) (e : LifecycleEvent) : Option Backoff :=
  if b.report.isSome && !e.nests then none
  else
    match e with
    | .superviseResumed | .relaunched | .waited => none
    | .startResumed =>
      (b.lifecycle.step options e).map fun s =>
        if s.run.isSome then { b.superviseRun with lifecycle := s } else { b with lifecycle := s }
    | e =>
      (b.lifecycle.step options e).map fun s =>
        if b.lifecycle.wakes e then { b.wake with lifecycle := s } else { b with lifecycle := s }

/-- `supervise` once its runner has ended, up to the report of the failure. -/
def superviseResumed (options : LifecycleOptions) (policy : RestartPolicy) (elapsed : ℕ) :
    Option Backoff :=
  (b.lifecycle.superviseResumed options).map fun s =>
    if s.isWaiting then
      -- A runner that outlived the longest wait was healthy.
      { b with lifecycle := s }.reportAttempt .onStopped
        (if policy.maxDelay ≤ elapsed then 0 else b.attempt)
    else { b with lifecycle := s }

/-- `relaunch` once options.start(true) has settled, up to the next callback. -/
def relaunched : Option Backoff :=
  b.lifecycle.relaunched.map fun s =>
    if s.isWaiting then { b with lifecycle := s }.reportAttempt .onRestartFailed b.attempt
    else if s.isStopped then { b with lifecycle := s }
    else { b with lifecycle := s, report := some .onRestarted }

/-- The callback returned: `wait` sets its timer, unless the restart is over. -/
def reported (policy : RestartPolicy) : Option Backoff :=
  match b.report with
  | none => none
  | some .onRestarted => some { b with report := none }
  | some _ => some { b with report := none, timer := some ⟨policy.backoff b.attempt, false⟩ }

/-- A callback threw, and `completion` rejects. -/
def reportThrew : Option Backoff :=
  match b.report, b.lifecycle.run with
  | some _, some run =>
    some { b with lifecycle := b.lifecycle.setSupervise run .settled, report := none }
  | _, _ => none

def fired : Option Backoff :=
  match b.timer with
  | some ⟨ms, false⟩ => some { b with timer := some ⟨ms, true⟩ }
  | _ => none

/-- `relaunch` goes on when the promise of `wait` has resolved. -/
def waited : Option Backoff :=
  if b.timer.any BackoffTimer.resolved then
    b.lifecycle.waited.map fun s => { b with lifecycle := s }
  else none

def step (options : LifecycleOptions) (policy : RestartPolicy) : BackoffEvent → Option Backoff
  | .lifecycle e => b.lifecycleStep options e
  | .reported => b.reported policy
  | .reportThrew => b.reportThrew
  | .superviseResumed elapsed =>
    if b.report.isSome then none else b.superviseResumed options policy elapsed
  | .relaunched => if b.report.isSome then none else b.relaunched
  | .fired => if b.report.isSome then none else b.fired
  | .waited => if b.report.isSome then none else b.waited

/-- `supervise` sleeps on a timer, and its run is stopped. -/
def asleep : Bool :=
  b.report.isNone && b.lifecycle.isStopped && b.lifecycle.isWaiting &&
    b.timer.any fun timer => !timer.resolved

/-- stop() was called in a callback that now returns to `wait`. -/
def late : BackoffEvent → Bool
  | .reported => b.lifecycle.isStopped && b.report.any (· ≠ .onRestarted)
  | _ => false

end Backoff

def backoff (options : LifecycleOptions) (policy : RestartPolicy) :
    TransitionSystem Backoff BackoffEvent where
  Init b := b = .initial
  step b e := b.step options policy e

/-! ## Where supervise rests -/

namespace Lifecycle

variable {options : LifecycleOptions} {s s' : Lifecycle} {e : LifecycleEvent}

/-- A run that waits has no runner, and its stop() waits for the run to end. -/
structure Resting (s : Lifecycle) : Prop where
  runner : ∀ run, s.run = some run →
    (run.supervise = .waiting ∨ ∃ id, run.supervise = .relaunching id) → run.runner = none
  stopping : ∀ run, s.run = some run → run.stopped = true → run.supervise = .waiting →
    s.stopping = some .awaitingCompletion
  starting : s.starting ≠ none → s.run = none

private theorem Resting.congr (h : s.Resting) (hrun : s'.run = s.run)
    (hstopping : s'.stopping = s.stopping ∨ s.stopping ≠ some .awaitingCompletion)
    (hstarting : s'.starting ≠ none → s.starting ≠ none ∨ s.run = none) : s'.Resting := by
  constructor
  · rw [hrun]
    exact h.runner
  · intro run hr hstopped hwaiting
    have hawait := h.stopping run (hrun ▸ hr) hstopped hwaiting
    rcases hstopping with hsame | hother
    · rw [hsame, hawait]
    · exact absurd hawait hother
  · intro h'
    rw [hrun]
    rcases hstarting h' with h' | h'
    · exact h.starting h'
    · exact h'

private theorem stopRun_resting (h : s.Resting) : s.stopRun.Resting := by
  have hcases := stopRun_cases s
  generalize s.stopRun = s' at hcases ⊢
  cases hcases with
  | idle hrun => constructor <;> simp [hrun]
  | @restarting run hrun hrunner =>
    constructor
    · simpa using fun _ => hrunner
    · simp
    · intro hstarting
      simp [h.starting (by simpa using hstarting)] at hrun
  | @running run runner hrun hrunner =>
    -- The run has a runner, so it does not wait.
    have hresting := h.runner run hrun
    constructor
    · simpa using hresting
    · intro run' hrun' _ hwaiting
      obtain rfl := Option.some.inj hrun'
      simp [hresting (.inl hwaiting)] at hrunner
    · intro hstarting
      simp [h.starting (by simpa [askStop] using hstarting)] at hrun

private theorem stopOnce_resting (h : s.Resting) (hstopping : s.stopping ≠ some .awaitingCompletion) :
    s.stopOnce.Resting := by
  unfold stopOnce
  split
  · exact h.congr rfl (.inr hstopping) .inl
  · exact stopRun_resting h

private theorem stop_resting (h : s.Resting) : s.stop.1.Resting := by
  have hcases := stop_cases s
  generalize s.stop.1 = s' at hcases ⊢
  cases hcases with
  | shared => exact h
  | startup hstopping => exact h.congr rfl (.inr (by simp [hstopping])) .inl
  | stops hstopping => exact stopOnce_resting h (by simp [hstopping])

private theorem start_resting (h : s.Resting) : s.start.1.Resting := by
  have hcases := start_cases s
  generalize s.start.1 = s' at hcases ⊢
  cases hcases with
  | chained => exact h.congr rfl (.inl rfl) .inl
  | rejected | running => exact h
  | started _ _ _ hrun => exact h.congr rfl (.inl rfl) fun _ => .inr hrun

/-- A step that sets no waiting run up. -/
private theorem setSupervise_resting (h : s.Resting) {run : Run} {supervise : Supervise}
    (hrun : s.run = some run) (hwaiting : supervise ≠ .waiting)
    (hrunner : ∀ id, supervise = .relaunching id → run.runner = none) :
    (s.setSupervise run supervise).Resting := by
  constructor
  · intro run' hrun' hsupervise
    obtain rfl := Option.some.inj hrun'
    rcases hsupervise with hsupervise | ⟨id, hsupervise⟩
    · exact absurd hsupervise hwaiting
    · exact hrunner id hsupervise
  · intro run' hrun' _ hsupervise
    obtain rfl := Option.some.inj hrun'
    exact absurd hsupervise hwaiting
  · intro hstarting
    simp [h.starting hstarting] at hrun

theorem Resting.step (h : s.Resting) (hstep : s.step options e = some s') : s'.Resting := by
  cases e with
  | start => exact Option.some.inj hstep ▸ start_resting h
  | stop => exact Option.some.inj hstep ▸ stop_resting h
  | runOnce =>
    obtain rfl := Option.some.inj hstep
    unfold runOnce
    split
    · exact h
    · exact h.congr rfl (.inl rfl) .inl
  | signal =>
    simp only [Lifecycle.step, Option.ite_none_left_eq_some, Option.some.injEq] at hstep
    exact hstep.2 ▸ stop_resting h
  | startBody =>
    simp only [Lifecycle.step, startBody] at hstep
    split at hstep
    · rename_i hstarting
      obtain rfl := Option.some.inj hstep
      refine h.congr ?_ (.inl ?_) fun _ => .inl (by simp [hstarting])
      all_goals split <;> rfl
    · cases hstep
  | startResumed =>
    simp only [Lifecycle.step, startResumed] at hstep
    split at hstep
    · rename_i runner hstarting
      split at hstep
      · cases hstep
      · cases hstep
      · obtain rfl := Option.some.inj hstep
        exact h.congr (by simp) (.inl (by simp)) fun _ => .inl (by simp [hstarting])
      · obtain rfl := Option.some.inj hstep
        constructor
        · simp
        · simp
        · simp
    · cases hstep
  | startReleased =>
    simp only [Lifecycle.step, startReleased] at hstep
    split at hstep
    · obtain rfl := Option.some.inj hstep
      exact h.congr rfl (.inl rfl) fun h' => absurd rfl h'
    · cases hstep
  | chained =>
    simp only [Lifecycle.step, chained, Option.ite_none_left_eq_some, Option.some.injEq] at hstep
    exact hstep.2 ▸ start_resting (h.congr rfl (.inl rfl) .inl)
  | stopResumed =>
    simp only [Lifecycle.step, stopResumed] at hstep
    split at hstep
    · rename_i hstopping
      split at hstep
      · exact Option.some.inj hstep ▸ stopOnce_resting h (by simp [hstopping])
      · cases hstep
    · split at hstep
      · exact Option.some.inj hstep ▸ stopRun_resting h
      · cases hstep
    · cases hstep
  | runnerStopped ok =>
    simp only [Lifecycle.step, runnerStopped] at hstep
    split at hstep
    · rename_i hstopping
      split at hstep
      · obtain rfl := Option.some.inj hstep
        exact h.congr rfl (.inr (by simp [hstopping])) .inl
      · obtain rfl := Option.some.inj hstep
        exact h.congr (by simp [settleStop]) (.inr (by simp [hstopping])) fun h' => .inl (by simpa [settleStop] using h')
    · cases hstep
  | completionSettled =>
    simp only [Lifecycle.step, completionSettled] at hstep
    split at hstep
    · split at hstep
      · obtain rfl := Option.some.inj hstep
        constructor <;> simp
      · cases hstep
    · cases hstep
  | released ok =>
    simp only [Lifecycle.step, released] at hstep
    split at hstep
    · rename_i hstopping
      obtain rfl := Option.some.inj hstep
      exact h.congr (by simp [settleStop]) (.inr (by simp [hstopping])) fun h' => .inl (by simpa [settleStop] using h')
    · cases hstep
  | superviseResumed =>
    simp only [Lifecycle.step, superviseResumed] at hstep
    split at hstep
    · rename_i run hrun
      split at hstep
      · split at hstep
        · split at hstep
          · split at hstep
            · exact Option.some.inj hstep ▸ setSupervise_resting h hrun (by simp) (by simp)
            · obtain rfl := Option.some.inj hstep
              constructor <;> simp
          · rename_i hgoes
            obtain rfl := Option.some.inj hstep
            -- Only a run that is not stopped waits for a restart.
            simp only [Bool.or_eq_true, not_or, Bool.not_eq_true] at hgoes
            constructor
            · simp [setSupervise]
            · simp [setSupervise, hgoes.1.2]
            · intro hstarting
              simp [h.starting hstarting] at hrun
        · cases hstep
      · cases hstep
    · cases hstep
  | waited =>
    simp only [Lifecycle.step, waited] at hstep
    split at hstep
    · rename_i run hrun
      split at hstep
      · rename_i hwaiting
        split at hstep
        · exact Option.some.inj hstep ▸ setSupervise_resting h hrun (by simp) (by simp)
        · obtain rfl := Option.some.inj hstep
          have hlaunched : s.launch.Resting := h.congr rfl (.inl rfl) .inl
          exact setSupervise_resting hlaunched hrun (by simp) fun _ _ => h.runner run hrun (.inl hwaiting)
      · cases hstep
    · cases hstep
  | relaunched =>
    simp only [Lifecycle.step, relaunched] at hstep
    split at hstep
    · rename_i run hrun
      split at hstep
      · rename_i runner hsupervise
        have hrunner := h.runner run hrun (.inr ⟨runner, hsupervise⟩)
        split at hstep
        · cases hstep
        · cases hstep
        · split at hstep
          · exact Option.some.inj hstep ▸ setSupervise_resting h hrun (by simp) (by simp)
          · rename_i hstopped
            obtain rfl := Option.some.inj hstep
            constructor
            · simpa [setSupervise] using hrunner
            · simp [setSupervise, hstopped]
            · intro hstarting
              simp [h.starting hstarting] at hrun
        · split at hstep
          · obtain rfl := Option.some.inj hstep
            exact setSupervise_resting (s := s.askStop runner) (h.congr rfl (.inl rfl) .inl) hrun
              (by simp) (by simp)
          · obtain rfl := Option.some.inj hstep
            constructor
            · simp [setSupervise]
            · simp [setSupervise]
            · intro hstarting
              have hnone : s.run = none := h.starting hstarting
              simp [hnone] at hrun
      · cases hstep
    · cases hstep
  | lateStopped ok =>
    simp only [Lifecycle.step, lateStopped] at hstep
    split at hstep
    · rename_i run hrun
      split at hstep
      · obtain rfl := Option.some.inj hstep
        split
        · exact setSupervise_resting (s := s.stopRunner _) (h.congr rfl (.inl rfl) .inl) hrun (by simp) (by simp)
        · exact setSupervise_resting h hrun (by simp) (by simp)
      · cases hstep
    · cases hstep
  | onceResumed =>
    simp only [Lifecycle.step, onceResumed] at hstep
    split at hstep
    all_goals first
      | exact Option.some.inj hstep ▸ h.congr rfl (.inl rfl) .inl
      | cases hstep
  | launched runner ok =>
    simp only [Lifecycle.step, launched] at hstep
    split at hstep
    · exact Option.some.inj hstep ▸ h.congr rfl (.inl rfl) .inl
    · cases hstep
  | ended runner failed =>
    simp only [Lifecycle.step, ended] at hstep
    split at hstep
    all_goals first
      | exact Option.some.inj hstep ▸ h.congr rfl (.inl rfl) .inl
      | cases hstep

private theorem start_run (s : Lifecycle) : s.start.1.run = s.run := by
  have hcases := start_cases s
  generalize s.start.1 = s' at hcases ⊢
  cases hcases <;> rfl

private theorem stopRun_supervise (s : Lifecycle) :
    s.stopRun.run.map Run.supervise = s.run.map Run.supervise := by
  have hcases := stopRun_cases s
  generalize s.stopRun = s' at hcases ⊢
  cases hcases <;> simp_all

private theorem stopOnce_supervise (s : Lifecycle) :
    s.stopOnce.run.map Run.supervise = s.run.map Run.supervise := by
  unfold stopOnce
  split
  · rfl
  · exact stopRun_supervise s

private theorem stop_supervise (s : Lifecycle) :
    s.stop.1.run.map Run.supervise = s.run.map Run.supervise := by
  have hcases := stop_cases s
  generalize s.stop.1 = s' at hcases ⊢
  cases hcases with
  | shared | startup => rfl
  | stops => exact stopOnce_supervise s

/-- What a callback may do leaves `supervise` where it is. -/
theorem nests_supervise (hnests : e.nests = true) (hstep : s.step options e = some s') :
    s'.run.map Run.supervise = s.run.map Run.supervise := by
  cases e with
  | start => exact Option.some.inj hstep ▸ congrArg _ (start_run s)
  | stop => exact Option.some.inj hstep ▸ stop_supervise s
  | signal =>
    simp only [Lifecycle.step, Option.ite_none_left_eq_some, Option.some.injEq] at hstep
    exact hstep.2 ▸ stop_supervise s
  | runOnce =>
    obtain rfl := Option.some.inj hstep
    unfold runOnce
    split <;> rfl
  | launched runner ok =>
    simp only [Lifecycle.step, launched] at hstep
    split at hstep
    · exact Option.some.inj hstep ▸ rfl
    · cases hstep
  | ended runner failed =>
    simp only [Lifecycle.step, ended] at hstep
    split at hstep
    all_goals first
      | exact Option.some.inj hstep ▸ rfl
      | cases hstep
  | _ => cases hnests

private theorem stop_unwoken (hwakes : s.wakes .stop = false) : s.stop.1.run = s.run := by
  unfold stop
  split
  · rfl
  · rename_i hstopping
    split
    · rfl
    · rename_i hstarting
      unfold stopOnce
      split
      · rfl
      · simp_all [wakes]

theorem isWaiting_eq (h : s'.run.map Run.supervise = s.run.map Run.supervise) :
    s'.isWaiting = s.isWaiting := by
  unfold isWaiting
  cases hrun : s.run <;> cases hrun' : s'.run <;> simp_all

/-- What the steps outside of `supervise` do to a run that waits. -/
inductive WaitingCases (s s' : Lifecycle) (e : LifecycleEvent) : Prop where
  | same (hrun : s'.run = s.run)
  | done (hwaiting : s'.isWaiting = false)
  /-- stop() marks the run and wakes it. -/
  | woken (hwakes : s.wakes e = true) (hrun : s'.run.map Run.supervise = s.run.map Run.supervise)

theorem waiting_cases (he : e ≠ .superviseResumed) (he' : e ≠ .relaunched) (he'' : e ≠ .waited)
    (hstep : s.step options e = some s') : WaitingCases s s' e := by
  cases e with
  | start => exact .same (Option.some.inj hstep ▸ start_run s)
  | stop =>
    obtain rfl := Option.some.inj hstep
    cases hwakes : s.wakes .stop with
    | true => exact .woken hwakes (stop_supervise s)
    | false => exact .same (stop_unwoken hwakes)
  | signal =>
    simp only [Lifecycle.step, Option.ite_none_left_eq_some, Option.some.injEq] at hstep
    obtain ⟨-, rfl⟩ := hstep
    cases hwakes : s.wakes .signal with
    | true => exact .woken hwakes (stop_supervise s)
    | false => exact .same (stop_unwoken hwakes)
  | runOnce =>
    obtain rfl := Option.some.inj hstep
    apply WaitingCases.same
    unfold runOnce
    split <;> rfl
  | startBody =>
    simp only [Lifecycle.step, startBody] at hstep
    split at hstep
    · obtain rfl := Option.some.inj hstep
      apply WaitingCases.same
      simp only [launch]
      split <;> rfl
    · cases hstep
  | startResumed =>
    simp only [Lifecycle.step, startResumed] at hstep
    split at hstep
    · split at hstep
      · cases hstep
      · cases hstep
      · exact .same (Option.some.inj hstep ▸ by simp)
      · exact .done (Option.some.inj hstep ▸ rfl)
    · cases hstep
  | startReleased =>
    simp only [Lifecycle.step, startReleased] at hstep
    split at hstep
    · exact .same (Option.some.inj hstep ▸ rfl)
    · cases hstep
  | chained =>
    simp only [Lifecycle.step, chained, Option.ite_none_left_eq_some, Option.some.injEq] at hstep
    exact .same (hstep.2 ▸ start_run _)
  | stopResumed =>
    simp only [Lifecycle.step, stopResumed] at hstep
    split at hstep
    · rename_i hstopping
      split at hstep
      · obtain rfl := Option.some.inj hstep
        cases honce : s.once with
        | none => exact .woken (by simp [wakes, hstopping, honce]) (stopOnce_supervise s)
        | some _ => exact .same (by simp [stopOnce, honce])
      · cases hstep
    · rename_i hstopping
      split at hstep
      · exact .woken (by simp [wakes, hstopping]) (Option.some.inj hstep ▸ stopRun_supervise s)
      · cases hstep
    · cases hstep
  | runnerStopped ok =>
    simp only [Lifecycle.step, runnerStopped] at hstep
    split at hstep
    · split at hstep
      · exact .same (Option.some.inj hstep ▸ rfl)
      · exact .same (Option.some.inj hstep ▸ by simp [settleStop])
    · cases hstep
  | completionSettled =>
    simp only [Lifecycle.step, completionSettled] at hstep
    split at hstep
    · split at hstep
      · exact .done (Option.some.inj hstep ▸ rfl)
      · cases hstep
    · cases hstep
  | released ok =>
    simp only [Lifecycle.step, released] at hstep
    split at hstep
    · exact .same (Option.some.inj hstep ▸ by simp [settleStop])
    · cases hstep
  | superviseResumed => exact absurd rfl he
  | waited => exact absurd rfl he''
  | relaunched => exact absurd rfl he'
  | lateStopped ok =>
    simp only [Lifecycle.step, lateStopped] at hstep
    split at hstep
    · split at hstep
      · exact .done (Option.some.inj hstep ▸ by simp [isWaiting, setSupervise])
      · cases hstep
    · cases hstep
  | onceResumed | launched | ended =>
    simp only [Lifecycle.step, onceResumed, launched, ended] at hstep
    split at hstep
    all_goals first
      | exact .same (Option.some.inj hstep ▸ rfl)
      | cases hstep

theorem WaitingCases.before (h : WaitingCases s s' e) (hwaiting : s'.isWaiting = true) :
    s.isWaiting = true := by
  cases h with
  | same hrun => rwa [← isWaiting_eq (congrArg _ hrun)]
  | done hover => simp [hover] at hwaiting
  | woken _ hrun => rwa [← isWaiting_eq hrun]

end Lifecycle

/-! ## Timers and callbacks -/

namespace Backoff

variable {options : LifecycleOptions} {policy : RestartPolicy} {b b' : Backoff} {e : LifecycleEvent}

/-- The callback tells whether `supervise` waits next. -/
structure Ok (b : Backoff) : Prop where
  resting : b.lifecycle.Resting
  waits : ∀ callback, b.report = some callback →
    b.lifecycle.isWaiting = decide (callback ≠ .onRestarted)
  timer : b.report = none → b.lifecycle.isWaiting = true → b.timer ≠ none

/-- A step outside of `supervise` is one of the lifecycle, and wakes the timer if stop() does. -/
inductive LifecycleStepCases (options : LifecycleOptions) (b : Backoff) (e : LifecycleEvent) :
    Backoff → Prop where
  | supervises {s : Lifecycle} (hstep : b.lifecycle.step options e = some s) (hreport : b.report = none)
      (he : e = .startResumed) (hrun : s.run.isSome) :
      LifecycleStepCases options b e { b with lifecycle := s, attempt := 0, timer := none }
  | wakes {s : Lifecycle} (hstep : b.lifecycle.step options e = some s)
      (hwakes : b.lifecycle.wakes e = true) :
      LifecycleStepCases options b e { b.wake with lifecycle := s }
  | keeps {s : Lifecycle} (hstep : b.lifecycle.step options e = some s)
      (hwakes : b.lifecycle.wakes e = false) (hrun : e = .startResumed → s.run = none) :
      LifecycleStepCases options b e { b with lifecycle := s }

theorem lifecycleStep_cases (h : b.lifecycleStep options e = some b') :
    LifecycleStepCases options b e b' ∧ (b.report.isSome → e.nests = true) ∧
      e ≠ .superviseResumed ∧ e ≠ .relaunched ∧ e ≠ .waited := by
  unfold lifecycleStep at h
  split at h
  · cases h
  · rename_i hnests
    have hnests' : b.report.isSome → e.nests = true := by
      intro hreport
      simpa [hreport] using hnests
    split at h
    · cases h
    · cases h
    · cases h
    · simp only [Option.map_eq_some_iff] at h
      obtain ⟨s, hstep, rfl⟩ := h
      refine ⟨?_, hnests', by simp, by simp, by simp⟩
      split
      · rename_i hrun
        have hreport : b.report = none := by
          cases hreport : b.report with
          | none => rfl
          | some _ => simp [hreport, LifecycleEvent.nests] at hnests
        exact .supervises hstep hreport rfl hrun
      · rename_i hrun
        exact .keeps hstep rfl fun _ => by simpa using hrun
    · rename_i he he' he'' hstart
      simp only [Option.map_eq_some_iff] at h
      obtain ⟨s, hstep, rfl⟩ := h
      refine ⟨?_, hnests', he, he', he''⟩
      split
      · rename_i hwakes
        exact .wakes hstep hwakes
      · rename_i hwakes
        exact .keeps hstep (by simpa using hwakes) fun hs => absurd hs hstart

theorem Ok.lifecycle (h : b.Ok) (hstep : b.lifecycleStep options e = some b') : b'.Ok := by
  obtain ⟨hcases, hnests, he, he', he''⟩ := lifecycleStep_cases hstep
  clear hstep
  have htimer : ∀ s, b.lifecycle.step options e = some s → b.report = none → s.isWaiting = true →
      b.timer ≠ none := fun s hstep hreport hwaiting =>
    h.timer hreport ((Lifecycle.waiting_cases he he' he'' hstep).before hwaiting)
  have hwaits : ∀ s callback, b.lifecycle.step options e = some s → b.report = some callback →
      s.isWaiting = decide (callback ≠ .onRestarted) := by
    intro s callback hstep hreport
    rw [← h.waits callback hreport]
    exact Lifecycle.isWaiting_eq (Lifecycle.nests_supervise (hnests (by simp [hreport])) hstep)
  cases hcases with
  | supervises hstep hreport hstart hrun =>
    refine ⟨h.resting.step hstep, by simp [hreport], fun _ hwaiting => ?_⟩
    -- The run is a new one, and its runner is up.
    simp only [hstart, Lifecycle.step, Lifecycle.startResumed] at hstep
    split at hstep
    · rename_i hstarting
      have hnone := h.resting.starting (by simp [hstarting])
      split at hstep
      · cases hstep
      · cases hstep
      · obtain rfl := Option.some.inj hstep
        simp [hnone] at hrun
      · obtain rfl := Option.some.inj hstep
        cases hwaiting
    · cases hstep
  | wakes hstep =>
    refine ⟨h.resting.step hstep, fun callback => hwaits _ callback hstep, fun hreport hwaiting => ?_⟩
    simpa [wake] using htimer _ hstep hreport hwaiting
  | keeps hstep =>
    exact ⟨h.resting.step hstep, fun callback => hwaits _ callback hstep, htimer _ hstep⟩

theorem Ok.step {e : BackoffEvent} (h : b.Ok) (hstep : b.step options policy e = some b') : b'.Ok := by
  cases e with
  | lifecycle e => exact h.lifecycle hstep
  | superviseResumed elapsed =>
    simp only [Backoff.step, Backoff.superviseResumed, Option.ite_none_left_eq_some,
      Option.map_eq_some_iff] at hstep
    obtain ⟨hreport, s, hs, rfl⟩ := hstep
    have hresting : s.Resting :=
      h.resting.step (show b.lifecycle.step options .superviseResumed = some s from hs)
    split
    · rename_i hwaiting
      refine ⟨hresting, fun callback hcallback => ?_, by simp [reportAttempt]⟩
      obtain rfl := Option.some.inj hcallback
      exact hwaiting
    · exact ⟨hresting, by simp_all, by simp_all⟩
  | relaunched =>
    simp only [Backoff.step, Backoff.relaunched, Option.ite_none_left_eq_some,
      Option.map_eq_some_iff] at hstep
    obtain ⟨hreport, s, hs, rfl⟩ := hstep
    have hresting : s.Resting :=
      h.resting.step (show b.lifecycle.step options .relaunched = some s from hs)
    split
    · rename_i hwaiting
      refine ⟨hresting, fun callback hcallback => ?_, by simp [reportAttempt]⟩
      obtain rfl := Option.some.inj hcallback
      exact hwaiting
    · rename_i hwaiting
      split
      · exact ⟨hresting, by simp_all, by simp_all⟩
      · refine ⟨hresting, fun callback hcallback => ?_, by simp⟩
        obtain rfl := Option.some.inj hcallback
        simpa using hwaiting
  | reported =>
    simp only [Backoff.step, Backoff.reported] at hstep
    split at hstep
    · cases hstep
    · rename_i hreport
      obtain rfl := Option.some.inj hstep
      have hwaiting := h.waits _ hreport
      exact ⟨h.resting, by simp, by simp [hwaiting]⟩
    · obtain rfl := Option.some.inj hstep
      exact ⟨h.resting, by simp, by simp⟩
  | reportThrew =>
    simp only [Backoff.step, Backoff.reportThrew] at hstep
    split at hstep
    · rename_i run _ hrun
      obtain rfl := Option.some.inj hstep
      exact ⟨Lifecycle.setSupervise_resting h.resting hrun (by simp) (by simp), by simp,
        by simp [Lifecycle.isWaiting, Lifecycle.setSupervise]⟩
    · cases hstep
  | fired =>
    simp only [Backoff.step, Backoff.fired, Option.ite_none_left_eq_some] at hstep
    obtain ⟨hreport, hstep⟩ := hstep
    split at hstep
    · obtain rfl := Option.some.inj hstep
      exact ⟨h.resting, h.waits, by simp⟩
    · cases hstep
  | waited =>
    simp only [Backoff.step, Backoff.waited, Option.ite_none_left_eq_some,
      Option.ite_none_right_eq_some, Option.map_eq_some_iff] at hstep
    obtain ⟨hreport, hresolved, s, hs, rfl⟩ := hstep
    have hresting : s.Resting :=
      h.resting.step (show b.lifecycle.step options .waited = some s from hs)
    refine ⟨hresting, by simp_all, fun _ _ => ?_⟩
    intro hnone
    simp [show b.timer = none from hnone] at hresolved

theorem asleep_iff : b.asleep = true ↔ b.report = none ∧ b.lifecycle.isStopped = true ∧
    b.lifecycle.isWaiting = true ∧ ∃ ms, b.timer = some ⟨ms, false⟩ := by
  obtain ⟨s, report, attempt, timer⟩ := b
  cases timer with
  | none => simp [asleep]
  | some timer =>
    obtain ⟨ms, resolved⟩ := timer
    simp [asleep, and_assoc]

private theorem asleep_lifecycle (hawake : b.asleep = false)
    (hstep : b.lifecycleStep options e = some b') : b'.asleep = false := by
  obtain ⟨hcases, -, he, he', he''⟩ := lifecycleStep_cases hstep
  clear hstep
  rw [← Bool.not_eq_true, asleep_iff]
  rintro ⟨hreport, hstopped, hwaiting, ms, htimer⟩
  cases hcases with
  | supervises => cases htimer
  | wakes =>
    -- What stop() wakes is resolved.
    cases hb : b.timer <;> simp [wake, hb] at htimer
  | keeps hstep hwakes =>
    cases Lifecycle.waiting_cases he he' he'' hstep with
    | same hrun =>
      simp only [Lifecycle.isStopped, Lifecycle.isWaiting, hrun] at hstopped hwaiting
      rw [← Bool.not_eq_true, asleep_iff] at hawake
      exact hawake ⟨hreport, hstopped, hwaiting, ms, htimer⟩
    | done hover => simp [hover] at hwaiting
    | woken hwoken => simp [hwoken] at hwakes

/-- A run falls asleep exactly when its stop() was called in the callback before the wait. -/
theorem asleep_eq_late {e : BackoffEvent} (h : b.Ok) (hawake : b.asleep = false)
    (hstep : b.step options policy e = some b') : b'.asleep = b.late e := by
  cases e with
  | lifecycle e => exact asleep_lifecycle hawake hstep
  | superviseResumed elapsed =>
    simp only [Backoff.step, Backoff.superviseResumed, Option.ite_none_left_eq_some,
      Option.map_eq_some_iff] at hstep
    obtain ⟨-, s, -, rfl⟩ := hstep
    split
    · rfl
    · rename_i hwaiting
      simp [asleep, late, hwaiting]
  | relaunched =>
    simp only [Backoff.step, Backoff.relaunched, Option.ite_none_left_eq_some,
      Option.map_eq_some_iff] at hstep
    obtain ⟨-, s, -, rfl⟩ := hstep
    split
    · rfl
    · rename_i hwaiting
      split
      · simp [asleep, late, hwaiting]
      · rfl
  | reported =>
    simp only [Backoff.step, Backoff.reported] at hstep
    split at hstep
    · cases hstep
    · rename_i hreport
      obtain rfl := Option.some.inj hstep
      have hwaiting := h.waits _ hreport
      simp_all [asleep, late]
    · rename_i callback hcallback hreport
      obtain rfl := Option.some.inj hstep
      have hwaiting := h.waits _ hreport
      cases callback <;> simp_all [asleep, late]
  | reportThrew =>
    simp only [Backoff.step, Backoff.reportThrew] at hstep
    split at hstep
    · obtain rfl := Option.some.inj hstep
      simp [asleep, late, Lifecycle.setSupervise, Lifecycle.isWaiting]
    · cases hstep
  | fired =>
    simp only [Backoff.step, Backoff.fired, Option.ite_none_left_eq_some] at hstep
    obtain ⟨-, hstep⟩ := hstep
    split at hstep
    · obtain rfl := Option.some.inj hstep
      simp [asleep, late]
    · cases hstep
  | waited =>
    simp only [Backoff.step, Backoff.waited, Option.ite_none_left_eq_some,
      Option.ite_none_right_eq_some, Option.map_eq_some_iff] at hstep
    obtain ⟨-, hresolved, s, -, rfl⟩ := hstep
    cases hb : b.timer <;> simp_all [asleep, late]

private theorem awaited_run {s s' : Lifecycle} {run : Run} (hrun : s.run = some run)
    (hwaiting : run.supervise = .waiting) (hstopping : s.stopping = some .awaitingCompletion)
    (hstarting : s.starting = none) (he : e ≠ .waited) (hstep : s.step options e = some s') :
    s'.run = s.run := by
  have hstop : s.stop.1 = s := by simp [Lifecycle.stop, hstopping]
  cases e with
  | start => exact Option.some.inj hstep ▸ Lifecycle.start_run s
  | chained =>
    simp only [Lifecycle.step, Lifecycle.chained, Option.ite_none_left_eq_some,
      Option.some.injEq] at hstep
    exact hstep.2 ▸ Lifecycle.start_run _
  | stop => rw [← Option.some.inj hstep, hstop]
  | signal =>
    simp only [Lifecycle.step, hstop, Option.ite_none_left_eq_some, Option.some.injEq] at hstep
    exact hstep.2 ▸ rfl
  | runOnce => exact Option.some.inj hstep ▸ by simp [Lifecycle.runOnce, hstopping]
  | startBody | startResumed | startReleased =>
    simp [Lifecycle.step, Lifecycle.startBody, Lifecycle.startResumed, Lifecycle.startReleased,
      hstarting] at hstep
  | stopResumed | runnerStopped | released =>
    simp [Lifecycle.step, Lifecycle.stopResumed, Lifecycle.runnerStopped, Lifecycle.released,
      hstopping] at hstep
  | completionSettled =>
    simp [Lifecycle.step, Lifecycle.completionSettled, Lifecycle.completed, hstopping, hrun,
      hwaiting] at hstep
  | superviseResumed | relaunched | lateStopped =>
    simp [Lifecycle.step, Lifecycle.superviseResumed, Lifecycle.relaunched, Lifecycle.lateStopped,
      hrun, hwaiting] at hstep
  | waited => exact absurd rfl he
  | onceResumed | launched | ended =>
    simp only [Lifecycle.step, Lifecycle.onceResumed, Lifecycle.launched, Lifecycle.ended] at hstep
    split at hstep
    all_goals first
      | exact Option.some.inj hstep ▸ rfl
      | cases hstep

/-- Only the end of its delay wakes a run that is asleep. -/
theorem asleep_stays {e : BackoffEvent} (h : b.Ok) (hasleep : b.asleep = true) (he : e ≠ .fired)
    (hstep : b.step options policy e = some b') : b'.asleep = true := by
  obtain ⟨hreport, hstopped, hwaiting, ms, htimer⟩ := asleep_iff.mp hasleep
  obtain ⟨run, hrun, hrunWaiting⟩ : ∃ run, b.lifecycle.run = some run ∧ run.supervise = .waiting := by
    simpa [Lifecycle.isWaiting, Option.any_eq_true] using hwaiting
  have hrunStopped : run.stopped = true := by
    simpa [Lifecycle.isStopped, hrun] using hstopped
  have hstopping := h.resting.stopping run hrun hrunStopped hrunWaiting
  have hstarting : b.lifecycle.starting = none := by
    by_contra hstarting
    simp [h.resting.starting hstarting] at hrun
  cases e with
  | lifecycle e =>
    obtain ⟨hcases, -, -, -, hwaited⟩ := lifecycleStep_cases hstep
    clear hstep
    cases hcases with
    | supervises hstep _ hstart =>
      simp [hstart, Lifecycle.step, Lifecycle.startResumed, hstarting] at hstep
    | wakes _ hwakes =>
      -- stop() has gone past its wake.
      cases e <;> simp [Lifecycle.wakes, hstopping] at hwakes
    | keeps hstep =>
      have hsame := awaited_run hrun hrunWaiting hstopping hstarting hwaited hstep
      rw [asleep_iff]
      simp only [Lifecycle.isStopped, Lifecycle.isWaiting, hsame]
      exact ⟨hreport, hstopped, hwaiting, ms, htimer⟩
  | superviseResumed | relaunched =>
    simp [Backoff.step, Backoff.superviseResumed, Backoff.relaunched, Lifecycle.superviseResumed,
      Lifecycle.relaunched, hrun, hrunWaiting] at hstep
  | reported | reportThrew =>
    simp [Backoff.step, Backoff.reported, Backoff.reportThrew, hreport] at hstep
  | fired => exact absurd rfl he
  | waited => simp [Backoff.step, Backoff.waited, htimer] at hstep

end Backoff

/-! ## The lifecycle below -/

/-- Every step is one of the lifecycle or leaves it alone, unless a callback throws. -/
theorem Backoff.step_lifecycle {options : LifecycleOptions} {policy : RestartPolicy} {b b' : Backoff}
    {e : BackoffEvent} (he : e ≠ .reportThrew) (hstep : b.step options policy e = some b') :
    b'.lifecycle = b.lifecycle ∨ ∃ e', b.lifecycle.step options e' = some b'.lifecycle := by
  cases e with
  | lifecycle e =>
    obtain ⟨hcases, -⟩ := lifecycleStep_cases hstep
    clear hstep
    cases hcases with
    | supervises hstep | wakes hstep | keeps hstep => exact .inr ⟨e, hstep⟩
  | superviseResumed elapsed =>
    simp only [Backoff.step, Backoff.superviseResumed, Option.ite_none_left_eq_some,
      Option.map_eq_some_iff] at hstep
    obtain ⟨-, s, hs, rfl⟩ := hstep
    exact .inr ⟨.superviseResumed, by split <;> exact hs⟩
  | relaunched =>
    simp only [Backoff.step, Backoff.relaunched, Option.ite_none_left_eq_some,
      Option.map_eq_some_iff] at hstep
    obtain ⟨-, s, hs, rfl⟩ := hstep
    refine .inr ⟨.relaunched, ?_⟩
    split
    · exact hs
    · split <;> exact hs
  | reported =>
    simp only [Backoff.step, Backoff.reported] at hstep
    split at hstep
    · cases hstep
    · exact .inl (Option.some.inj hstep ▸ rfl)
    · exact .inl (Option.some.inj hstep ▸ rfl)
  | reportThrew => exact absurd rfl he
  | fired =>
    simp only [Backoff.step, Backoff.fired, Option.ite_none_left_eq_some] at hstep
    obtain ⟨-, hstep⟩ := hstep
    split at hstep
    · exact .inl (Option.some.inj hstep ▸ rfl)
    · cases hstep
  | waited =>
    simp only [Backoff.step, Backoff.waited, Option.ite_none_left_eq_some,
      Option.ite_none_right_eq_some, Option.map_eq_some_iff] at hstep
    obtain ⟨-, -, s, hs, rfl⟩ := hstep
    exact .inr ⟨.waited, hs⟩

theorem lifecycle_of_backoff {options : LifecycleOptions} {policy : RestartPolicy} {b : Backoff}
    (h : (backoff options policy).ReachableWith (fun _ e => e ≠ .reportThrew) b) :
    (lifecycle options).Reachable b.lifecycle := by
  induction h with
  | init h =>
    obtain rfl := h
    exact .init rfl
  | step _ hc hs ih =>
    rcases Backoff.step_lifecycle hc hs with hsame | ⟨e', hs'⟩
    · exact hsame ▸ ih
    · exact .step ih trivial hs'

/-! ## stop() and the backoff -/

/-- What a run has seen so far. -/
structure Nights where
  /-- A callback returned to `wait` with its run stopped. -/
  late : Bool
  /-- A stopped run was asleep. -/
  slept : Bool

def noteNight (b : Backoff) (e : BackoffEvent) (b' : Backoff) (nights : Nights) : Nights :=
  ⟨nights.late || b.late e, nights.slept || b'.asleep⟩

def nights (options : LifecycleOptions) (policy : RestartPolicy) :
    TransitionSystem (Backoff × Nights) BackoffEvent :=
  TransitionSystem.observe (backoff options policy) ⟨false, false⟩ noteNight

/-- `relaunch` may go on in this very state. -/
def Backoff.WaitOver (options : LifecycleOptions) (policy : RestartPolicy) (b : Backoff) : Prop :=
  ∃ b', b.step options policy .waited = some b'

private structure Nightly (b : Backoff) (nights : Nights) : Prop where
  ok : b.Ok
  agrees : nights.slept = nights.late
  noted : b.asleep = true → nights.slept = true

private theorem nightly {options : LifecycleOptions} {policy : RestartPolicy} {p : Backoff × Nights}
    (h : (nights options policy).Reachable p) : Nightly p.1 p.2 := by
  refine h.invariant (I := fun p => Nightly p.1 p.2) ?_ ?_
  · rintro ⟨b, seen⟩ ⟨rfl, rfl⟩
    refine ⟨⟨?_, by simp [Backoff.initial], fun _ hwaiting => by cases hwaiting⟩, rfl, by simp [Backoff.asleep, Backoff.initial,
      Lifecycle.isStopped, Lifecycle.initial]⟩
    constructor <;> simp [Backoff.initial, Lifecycle.initial]
  · rintro ⟨b, seen⟩ e ⟨b', seen'⟩ - ⟨hok, hagrees, hnoted⟩ - hstep
    obtain ⟨hstep, hseen⟩ := TransitionSystem.observe_step_iff.mp hstep
    have hstep : b.step options policy e = some b' := hstep
    obtain rfl : seen' = noteNight b e b' seen := hseen
    refine ⟨hok.step hstep, ?_, by simp_all [noteNight]⟩
    cases hasleep : b.asleep with
    | true => simp_all [noteNight]
    | false =>
      have hagrees : seen.slept = seen.late := hagrees
      simp [noteNight, hagrees, Backoff.asleep_eq_late hok hasleep hstep]

namespace Backoff

variable {options : LifecycleOptions} {policy : RestartPolicy} {b b' : Backoff}

/-- A stopped run ends after its wait, without another restart. -/
theorem ends_after_wait (hstopped : b.lifecycle.isStopped = true)
    (hstep : b.step options policy .waited = some b') :
    b'.lifecycle.completed = true ∧ b'.lifecycle.runners = b.lifecycle.runners := by
  simp only [Backoff.step, Backoff.waited, Option.ite_none_left_eq_some,
    Option.ite_none_right_eq_some, Option.map_eq_some_iff] at hstep
  obtain ⟨-, -, s, hs, rfl⟩ := hstep
  unfold Lifecycle.waited at hs
  split at hs
  · rename_i run hrun
    split at hs
    · split at hs
      · exact Option.some.inj hs ▸ ⟨by simp [Lifecycle.completed, Lifecycle.setSupervise], rfl⟩
      · simp_all [Lifecycle.isStopped]
    · cases hs
  · cases hs

theorem Ok.waitOver_iff (h : b.Ok) (hstopped : b.lifecycle.isStopped = true)
    (hwaiting : b.lifecycle.isWaiting = true) (hreport : b.report = none) :
    b.WaitOver options policy ↔ b.asleep = false := by
  obtain ⟨timer, htimer⟩ := Option.ne_none_iff_exists'.mp (h.timer hreport hwaiting)
  obtain ⟨ms, resolved⟩ := timer
  obtain ⟨run, hrun, hrunWaiting⟩ : ∃ run, b.lifecycle.run = some run ∧ run.supervise = .waiting := by
    simpa [Lifecycle.isWaiting, Option.any_eq_true] using hwaiting
  have hrunStopped : run.stopped = true := by
    simpa [Lifecycle.isStopped, hrun] using hstopped
  cases resolved <;>
    simp [WaitOver, Backoff.step, Backoff.waited, Lifecycle.waited, asleep, hreport, hstopped, hwaiting,
      htimer, hrun, hrunWaiting, hrunStopped]

end Backoff

/--
A stopped run sleeps on a timer if and only if stop() was called in a callback that then
returned to `wait`, and sleeps until the timer fires. In every other state in which it
waits it may end at once, and it never restarts.
-/
theorem backoff_cut_iff {options : LifecycleOptions} {policy : RestartPolicy} {b : Backoff}
    {past : Nights} (h : (nights options policy).Reachable (b, past)) :
    (past.slept = true ↔ past.late = true) ∧
    (b.asleep = true → ∀ e b', e ≠ .fired → b.step options policy e = some b' →
      b'.asleep = true) ∧
    (b.lifecycle.isStopped = true → b.lifecycle.isWaiting = true → b.report = none →
      (b.WaitOver options policy ↔ b.asleep = false)) ∧
    (b.lifecycle.isStopped = true → ∀ b', b.step options policy .waited = some b' →
      b'.lifecycle.completed = true ∧ b'.lifecycle.runners = b.lifecycle.runners) := by
  obtain ⟨hok, hagrees, -⟩ := nightly h
  refine ⟨?_, ?_, ?_, ?_⟩
  · rw [hagrees]
  · intro hasleep e b' he hstep
    exact Backoff.asleep_stays hok hasleep he hstep
  · exact hok.waitOver_iff
  · intro hstopped b' hstep
    exact Backoff.ends_after_wait hstopped hstep

namespace BackoffTrace

def options : LifecycleOptions := ⟨false, true⟩

def policy : RestartPolicy := ⟨1000, 30000, by decide, by decide⟩

/-- A runner fails. -/
def failed : List BackoffEvent :=
  [.lifecycle .start, .lifecycle .startBody, .lifecycle (.launched 0 true), .lifecycle .startResumed,
    .lifecycle (.ended 0 true), .superviseResumed 0]

/-- stop() is called while the run waits. -/
def stopped : List BackoffEvent := failed ++ [.reported, .lifecycle .stop]

/-- onStopped calls stop(). -/
def stoppedInCallback : List BackoffEvent := failed ++ [.lifecycle .stop, .reported]

end BackoffTrace

theorem backoff_cut_iff_stopped : ∃ b : Backoff, b.lifecycle.isStopped = true ∧
    b.WaitOver BackoffTrace.options BackoffTrace.policy := by
  have hinit : (nights BackoffTrace.options BackoffTrace.policy).Init (.initial, ⟨false, false⟩) :=
    ⟨rfl, rfl⟩
  obtain ⟨⟨b, past⟩, hreach, hb⟩ := TransitionSystem.exists_reachable_of_run BackoffTrace.stopped
    (fun p => p.1.lifecycle.isStopped && p.1.lifecycle.isWaiting && p.1.report.isNone && !p.1.asleep)
    hinit (by decide)
  simp only [Bool.and_eq_true, Option.isNone_iff_eq_none, Bool.not_eq_true'] at hb
  obtain ⟨⟨⟨hstopped, hwaiting⟩, hreport⟩, hawake⟩ := hb
  obtain ⟨-, -, hover, -⟩ := backoff_cut_iff hreach
  exact ⟨b, hstopped, (hover hstopped hwaiting hreport).mpr hawake⟩

/-- onStopped calls stop(), and the run sleeps on. -/
theorem stop_in_callback_sleeps : ∃ b : Backoff,
    (backoff BackoffTrace.options BackoffTrace.policy).Reachable b ∧ b.lifecycle.isStopped = true ∧
      b.lifecycle.stopping = some .awaitingCompletion ∧ b.asleep = true := by
  have hinit : (backoff BackoffTrace.options BackoffTrace.policy).Init .initial := rfl
  obtain ⟨b, hreach, hb⟩ := TransitionSystem.exists_reachable_of_run BackoffTrace.stoppedInCallback
    (fun b => b.lifecycle.isStopped && b.lifecycle.stopping = some .awaitingCompletion && b.asleep)
    hinit (by decide)
  simp only [Bool.and_eq_true, decide_eq_true_eq] at hb
  exact ⟨b, hreach, hb.1.1, hb.1.2, hb.2⟩

end BetterGraphileWorker
