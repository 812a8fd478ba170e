-- SUMMARY: startRunner of worker.ts: its listeners, the maintenance it starts and stops, and how its promise settles.
import BetterGraphileWorker.Worker.Lifecycle
import BetterGraphileWorker.Worker.Requests

/-!
# Runners

`startRunner` listens on an emitter, which its caller may have supplied and share with other pools,
while Graphile's `run` starts a pool. The pool announces itself with `pool:create`, and its
maintenance starts. When the pool has ended, maintenance is stopped before the runner's promise
settles. The lifecycle sees of all this a status.
-/

namespace BetterGraphileWorker.Runner

structure Options where
  /-- `maintain` is given. -/
  maintain : Bool
  /-- `secondLookOnNotify` is given. -/
  secondLook : Bool
  runnerName : Option String

inductive Failure where
  | thrown (error : Thrown)
  /-- `WorkerStoppedError`. -/
  | workerStopped (runner : Option String) (cause : Option Thrown)

inductive Phase where
  /-- Awaits `run()`. -/
  | starting
  /-- The `catch` block awaits the stop of the maintenance that it found. -/
  | cleaning (error : Thrown) (maintenance : Option ℕ)
  /-- `startRunner` rejected. -/
  | failed (error : Thrown)
  /-- The promise of Graphile's runner is pending. -/
  | running
  | settled (pool : Except Thrown Unit)
  | detached (pool : Except Thrown Unit)
  /-- `.finally(stopMaintenance)` awaits the stop of the maintenance that it found. -/
  | stopping (pool : Except Thrown Unit) (maintenance : Option ℕ)
  | stopped (result : Except Thrown Unit)
  /-- `promise` has settled. -/
  | ended (result : Except Failure Unit)

/-- The listeners that are set. -/
structure Listeners where
  create : Bool
  secondLook : Bool
  /-- Those of `pool:fatalError`, `pool:gracefulShutdown` and `pool:forcefulShutdown`. -/
  fatal : Bool
deriving DecidableEq

inductive StopCall where
  /-- Awaits the `stop()` of Graphile's runner. -/
  | pending
  /-- Awaits `ended`. -/
  | waiting
  | resolved
deriving DecidableEq

structure State where
  phase : Phase
  listeners : Listeners
  /-- The maintenances that `maintain` has started. -/
  started : ℕ
  maintenance : Option ℕ
  /-- Those whose `stop()` was called, and those whose `stop()` settled. -/
  asked : List ℕ
  halted : List ℕ
  cause : Option Thrown
  requested : Bool
  calls : Table ℕ StopCall
  nextCall : ℕ

inductive Event where
  /-- `pool:create`, of this pool or of another one. -/
  | create
  | fatalError (error : Thrown)
  /-- `pool:gracefulShutdown` or `pool:forcefulShutdown`. -/
  | shutdown (message : String)
  | runResolved
  | runRejected (error : Thrown)
  /-- The promise of Graphile's runner settles. -/
  | poolSettled (pool : Except Thrown Unit)
  | detach
  | stopMaintenance
  /-- The awaited `stop()` of a maintenance settles. -/
  | maintenanceStopped (result : Except Thrown Unit)
  /-- There is no maintenance to await. -/
  | proceed
  | check
  | stop
  /-- The `stop()` of Graphile's runner settles for a caller, either way. -/
  | poolStopped (call : ℕ)
  /-- A caller goes on after `ended`. -/
  | resume (call : ℕ)

/-- `error instanceof Error ? error : new Error(String(error))`; nothing if `String` throws. -/
def asError : Thrown → Option Thrown
  | .value (some text) => some (.error "Error" text)
  | .value none => none
  | error => some error

def State.initial (options : Options) : State where
  phase := .starting
  listeners := ⟨true, options.secondLook, true⟩
  started := 0
  maintenance := none
  asked := []
  halted := []
  cause := none
  requested := false
  calls := ∅
  nextCall := 0

namespace State

variable (s : State)

/-- `cause ??= error`. -/
def because (error : Option Thrown) : State :=
  if s.listeners.fatal then { s with cause := s.cause.or error } else s

def detach : State := { s with listeners := { s.listeners with secondLook := false, fatal := false } }

/-- `stopMaintenance()` up to its `await`. -/
def askMaintenance : State := { s with asked := s.asked ++ s.maintenance.toList }

/-- Leave `startRunner` by its exception; the `finally` block comes last. -/
def fail (error : Thrown) : State :=
  { s with phase := .failed error, listeners := { s.listeners with create := false } }

/-- The runner was returned, so its `stop()` can be called. -/
def returned : Bool :=
  match s.phase with
  | .starting | .cleaning _ _ | .failed _ => false
  | _ => true

def isEnded : Bool :=
  match s.phase with
  | .ended _ => true
  | _ => false

/-- `.then(() => { if (!requested) throw ... })`. -/
def verdict (options : Options) : Except Thrown Unit → Except Failure Unit
  | .error error => .error (.thrown error)
  | .ok _ => if s.requested then .ok () else .error (.workerStopped options.runnerName s.cause)

def exec (options : Options) : Event → Option State
  | .create =>
    if s.listeners.create && options.maintain then
      some { s with maintenance := some s.started, started := s.started + 1 }
    else some s
  | .fatalError error => some (s.because (asError error))
  | .shutdown message => some (s.because (some (.error "Error" message)))
  | .runResolved =>
    match s.phase with
    | .starting => some { s with phase := .running, listeners := { s.listeners with create := false } }
    | _ => none
  | .runRejected error =>
    match s.phase with
    | .starting => some { s.detach.askMaintenance with phase := .cleaning error s.maintenance }
    | _ => none
  | .poolSettled pool =>
    match s.phase with
    | .running => some { s with phase := .settled pool }
    | _ => none
  | .detach =>
    match s.phase with
    | .settled pool => some { s.detach with phase := .detached pool }
    | _ => none
  | .stopMaintenance =>
    match s.phase with
    | .detached pool => some { s.askMaintenance with phase := .stopping pool s.maintenance }
    | _ => none
  | .maintenanceStopped result =>
    match s.phase with
    | .cleaning error (some m) =>
      match result with
      | .ok _ => some { s.fail error with halted := s.halted ++ [m] }
      | .error error' => some { s.fail error' with halted := s.halted ++ [m] }
    | .stopping pool (some m) =>
      match result with
      | .ok _ => some { s with phase := .stopped pool, halted := s.halted ++ [m] }
      | .error error => some { s with phase := .stopped (.error error), halted := s.halted ++ [m] }
    | _ => none
  | .proceed =>
    match s.phase with
    | .cleaning error none => some (s.fail error)
    | .stopping pool none => some { s with phase := .stopped pool }
    | _ => none
  | .check =>
    match s.phase with
    | .stopped result => some { s with phase := .ended (s.verdict options result) }
    | _ => none
  | .stop =>
    if s.returned then
      some { s with
        requested := true
        calls := s.calls.insert s.nextCall .pending
        nextCall := s.nextCall + 1 }
    else none
  | .poolStopped call =>
    match s.calls.get? call with
    | some .pending => some { s with calls := s.calls.insert call .waiting }
    | _ => none
  | .resume call =>
    match s.calls.get? call with
    | some .waiting => if s.isEnded then some { s with calls := s.calls.insert call .resolved } else none
    | _ => none

end State

/-- `startRunner`, once its listeners are set. -/
def system (options : Options) : TransitionSystem State Event where
  Init s := s = .initial options
  step s e := s.exec options e

/-- `startRunner` and all that has happened. -/
def recorded (options : Options) : TransitionSystem (State × List Event) Event :=
  (system options).observe [] fun _ e _ past => past ++ [e]

variable {options : Options} {s s' : State} {e : Event} {past : List Event}

/-! ## What a step does -/

inductive Step (options : Options) (s : State) : Event → State → Prop where
  | create (hcreate : s.listeners.create = true) (hmaintain : options.maintain = true) :
      Step options s .create { s with maintenance := some s.started, started := s.started + 1 }
  | unheard (h : (s.listeners.create && options.maintain) = false) : Step options s .create s
  | fatalError (error : Thrown) : Step options s (.fatalError error) (s.because (asError error))
  | shutdown (message : String) :
      Step options s (.shutdown message) (s.because (some (.error "Error" message)))
  | runResolved (hphase : s.phase = .starting) : Step options s .runResolved
      { s with phase := .running, listeners := { s.listeners with create := false } }
  | runRejected (error : Thrown) (hphase : s.phase = .starting) : Step options s (.runRejected error)
      { s.detach.askMaintenance with phase := .cleaning error s.maintenance }
  | poolSettled (pool : Except Thrown Unit) (hphase : s.phase = .running) :
      Step options s (.poolSettled pool) { s with phase := .settled pool }
  | detach {pool : Except Thrown Unit} (hphase : s.phase = .settled pool) :
      Step options s .detach { s.detach with phase := .detached pool }
  | stopMaintenance {pool : Except Thrown Unit} (hphase : s.phase = .detached pool) :
      Step options s .stopMaintenance
        { s.askMaintenance with phase := .stopping pool s.maintenance }
  | cleaned {error : Thrown} {m : ℕ} (result : Except Thrown Unit) (error' : Thrown)
      (hphase : s.phase = .cleaning error (some m)) : Step options s (.maintenanceStopped result)
        { s.fail error' with halted := s.halted ++ [m] }
  | stopped {pool : Except Thrown Unit} {m : ℕ} (result : Except Thrown Unit)
      (hphase : s.phase = .stopping pool (some m)) : Step options s (.maintenanceStopped result)
        { s with
          phase := .stopped (match result with | .ok _ => pool | .error error => .error error)
          halted := s.halted ++ [m] }
  | notCleaned {error : Thrown} (hphase : s.phase = .cleaning error none) :
      Step options s .proceed (s.fail error)
  | notStopped {pool : Except Thrown Unit} (hphase : s.phase = .stopping pool none) :
      Step options s .proceed { s with phase := .stopped pool }
  | check {result : Except Thrown Unit} (hphase : s.phase = .stopped result) :
      Step options s .check { s with phase := .ended (s.verdict options result) }
  | stop (hreturned : s.returned = true) : Step options s .stop
      { s with
        requested := true
        calls := s.calls.insert s.nextCall .pending
        nextCall := s.nextCall + 1 }
  | poolStopped {call : ℕ} (hcall : s.calls.get? call = some .pending) :
      Step options s (.poolStopped call) { s with calls := s.calls.insert call .waiting }
  | resume {call : ℕ} (hcall : s.calls.get? call = some .waiting) (hended : s.isEnded = true) :
      Step options s (.resume call) { s with calls := s.calls.insert call .resolved }

theorem step_of_exec (h : s.exec options e = some s') : Step options s e s' := by
  cases e with
  | create =>
    simp only [State.exec] at h
    split at h
    · rename_i hheard
      obtain ⟨hcreate, hmaintain⟩ := Bool.and_eq_true_iff.mp hheard
      obtain rfl := Option.some.inj h
      exact .create hcreate hmaintain
    · rename_i hunheard
      obtain rfl := Option.some.inj h
      exact .unheard (Bool.eq_false_iff.mpr hunheard)
  | fatalError error =>
    obtain rfl := Option.some.inj h
    exact .fatalError error
  | shutdown message =>
    obtain rfl := Option.some.inj h
    exact .shutdown message
  | stop =>
    simp only [State.exec, Option.ite_none_right_eq_some, Option.some.injEq] at h
    obtain ⟨hreturned, rfl⟩ := h
    exact .stop hreturned
  | resume call =>
    simp only [State.exec] at h
    split at h
    · rename_i hcall
      simp only [Option.ite_none_right_eq_some, Option.some.injEq] at h
      obtain ⟨hended, rfl⟩ := h
      exact .resume hcall hended
    · cases h
  | poolStopped call =>
    simp only [State.exec] at h
    split at h
    · rename_i hcall
      obtain rfl := Option.some.inj h
      exact .poolStopped hcall
    · cases h
  | maintenanceStopped result =>
    simp only [State.exec] at h
    split at h
    · rename_i error m hphase
      split at h
      · obtain rfl := Option.some.inj h
        exact .cleaned _ error hphase
      · rename_i error'
        obtain rfl := Option.some.inj h
        exact .cleaned _ error' hphase
    · rename_i pool m hphase
      split at h
      · rename_i value
        obtain rfl := Option.some.inj h
        exact .stopped (.ok value) hphase
      · rename_i error
        obtain rfl := Option.some.inj h
        exact .stopped (.error error) hphase
    · cases h
  | proceed =>
    simp only [State.exec] at h
    split at h
    · rename_i error hphase
      obtain rfl := Option.some.inj h
      exact .notCleaned hphase
    · rename_i pool hphase
      obtain rfl := Option.some.inj h
      exact .notStopped hphase
    · cases h
  | runResolved =>
    simp only [State.exec] at h
    split at h
    · rename_i hphase
      obtain rfl := Option.some.inj h
      exact .runResolved hphase
    · cases h
  | runRejected error =>
    simp only [State.exec] at h
    split at h
    · rename_i hphase
      obtain rfl := Option.some.inj h
      exact .runRejected error hphase
    · cases h
  | poolSettled pool =>
    simp only [State.exec] at h
    split at h
    · rename_i hphase
      obtain rfl := Option.some.inj h
      exact .poolSettled pool hphase
    · cases h
  | detach =>
    simp only [State.exec] at h
    split at h
    · rename_i hphase
      obtain rfl := Option.some.inj h
      exact .detach hphase
    · cases h
  | stopMaintenance =>
    simp only [State.exec] at h
    split at h
    · rename_i hphase
      obtain rfl := Option.some.inj h
      exact .stopMaintenance hphase
    · cases h
  | check =>
    simp only [State.exec] at h
    split at h
    · rename_i hphase
      obtain rfl := Option.some.inj h
      exact .check hphase
    · cases h

/-! ## Listeners and maintenance -/

def Listeners.off : Listeners := ⟨false, false, false⟩

/-- The listeners that are set, and the maintenances that were asked to stop and did. -/
def State.Kept (options : Options) (s : State) : Prop :=
  match s.phase with
  | .starting => s.listeners = ⟨true, options.secondLook, true⟩ ∧ s.asked = [] ∧ s.halted = []
  | .running | .settled _ =>
    s.listeners = ⟨false, options.secondLook, true⟩ ∧ s.asked = [] ∧ s.halted = []
  | .cleaning _ m => s.listeners = ⟨true, false, false⟩ ∧ s.asked = m.toList ∧ s.halted = []
  | .failed _ => s.listeners = .off ∧ s.halted = s.asked ∧ s.asked.length ≤ 1
  | .detached _ => s.listeners = .off ∧ s.asked = [] ∧ s.halted = []
  | .stopping _ m => s.listeners = .off ∧ m = s.maintenance ∧ s.asked = m.toList ∧ s.halted = []
  | .stopped _ | .ended _ => s.listeners = .off ∧ s.asked = s.maintenance.toList ∧ s.halted = s.asked

structure State.Inv (options : Options) (s : State) : Prop where
  kept : s.Kept options
  /-- The variable `maintenance` holds the last one. -/
  last : s.maintenance = if s.started = 0 then none else some (s.started - 1)
  calls : ∀ k call, s.calls.get? k = some call → s.requested = true
  returned : s.requested = true → s.returned = true
  resolved : ∀ k, s.calls.get? k = some .resolved → s.isEnded = true

theorem State.inv_initial : (State.initial options).Inv options where
  kept := ⟨rfl, rfl, rfl⟩
  last := rfl
  calls _ _ h := by cases h
  returned h := by cases h
  resolved _ h := by cases h

@[simp] theorem State.because_phase {error : Option Thrown} : (s.because error).phase = s.phase := by
  unfold State.because; split <;> rfl

/-- The cause is all that an error of the pool changes. -/
theorem State.because_eq (error : Option Thrown) :
    ∃ cause, s.because error = { s with cause } := by
  unfold State.because
  split
  · exact ⟨_, rfl⟩
  · exact ⟨s.cause, rfl⟩

theorem State.Inv.unrequested (hinv : s.Inv options) (h : s.returned = false) :
    s.requested = false ∧ ∀ k call, s.calls.get? k ≠ some call := by
  have hrequested : s.requested = false := by
    cases hrequested : s.requested with
    | false => rfl
    | true =>
      rw [hinv.returned hrequested] at h
      cases h
  refine ⟨hrequested, fun k call hget => ?_⟩
  rw [hinv.calls k call hget] at hrequested
  cases hrequested

/-- A step of `startRunner` before it returns the runner. -/
private theorem State.Inv.before (hinv : s.Inv options) (hbefore : s.returned = false)
    (hkept : s'.Kept options) (hmaintenance : s'.maintenance = s.maintenance)
    (hstarted : s'.started = s.started) (hrequested : s'.requested = s.requested)
    (hcalls : s'.calls = s.calls) : s'.Inv options := by
  obtain ⟨hnot, hnone⟩ := hinv.unrequested hbefore
  refine ⟨hkept, by rw [hmaintenance, hstarted, hinv.last], fun k call hget => ?_, fun h => ?_,
    fun k hget => ?_⟩
  · exact absurd (hcalls ▸ hget) (hnone k call)
  · rw [hrequested, hnot] at h
    cases h
  · exact absurd (hcalls ▸ hget) (hnone k _)

/-- A step of the promise after that. -/
private theorem State.Inv.after (hinv : s.Inv options) (hreturned : s'.returned = true)
    (hended : s.isEnded = true → s'.isEnded = true)
    (hkept : s'.Kept options) (hmaintenance : s'.maintenance = s.maintenance)
    (hstarted : s'.started = s.started) (hrequested : s'.requested = s.requested)
    (hcalls : s'.calls = s.calls) : s'.Inv options where
  kept := hkept
  last := by rw [hmaintenance, hstarted, hinv.last]
  calls k call hget := by
    rw [hrequested]
    exact hinv.calls k call (hcalls ▸ hget)
  returned _ := hreturned
  resolved k hget := hended (hinv.resolved k (hcalls ▸ hget))

theorem State.Inv.exec (hinv : s.Inv options) (h : Step options s e s') : s'.Inv options := by
  have hkept := hinv.kept
  cases h with
  | create hcreate hmaintain =>
    refine ⟨?_, by simp, hinv.calls, hinv.returned, hinv.resolved⟩
    unfold State.Kept at hkept ⊢
    split at hkept <;> simp_all [Listeners.off]
  | unheard => exact hinv
  | fatalError error =>
    obtain ⟨cause, heq⟩ := s.because_eq (asError error)
    rw [heq]
    exact ⟨hkept, hinv.last, hinv.calls, hinv.returned, hinv.resolved⟩
  | shutdown message =>
    obtain ⟨cause, heq⟩ := s.because_eq (some (.error "Error" message))
    rw [heq]
    exact ⟨hkept, hinv.last, hinv.calls, hinv.returned, hinv.resolved⟩
  | runResolved hphase =>
    simp only [State.Kept, hphase] at hkept
    refine hinv.before (by simp [State.returned, hphase]) ?_ rfl rfl rfl rfl
    simp [State.Kept, hkept]
  | runRejected error hphase =>
    simp only [State.Kept, hphase] at hkept
    refine hinv.before (by simp [State.returned, hphase]) ?_ rfl rfl rfl rfl
    simp [State.Kept, State.detach, State.askMaintenance, hkept]
  | cleaned result error' hphase =>
    simp only [State.Kept, hphase] at hkept
    refine hinv.before (by simp [State.returned, hphase]) ?_ rfl rfl rfl rfl
    simp [State.Kept, State.fail, Listeners.off, hkept]
  | notCleaned hphase =>
    simp only [State.Kept, hphase] at hkept
    refine hinv.before (by simp [State.returned, hphase]) ?_ rfl rfl rfl rfl
    simp [State.Kept, State.fail, Listeners.off, hkept]
  | poolSettled pool hphase =>
    simp only [State.Kept, hphase] at hkept
    exact hinv.after rfl (by simp [State.isEnded, hphase]) hkept rfl rfl rfl rfl
  | detach hphase =>
    simp only [State.Kept, hphase] at hkept
    refine hinv.after rfl (by simp [State.isEnded, hphase]) ?_ rfl rfl rfl rfl
    simp [State.Kept, State.detach, Listeners.off, hkept]
  | stopMaintenance hphase =>
    simp only [State.Kept, hphase] at hkept
    refine hinv.after rfl (by simp [State.isEnded, hphase]) ?_ rfl rfl rfl rfl
    simp [State.Kept, State.askMaintenance, hkept]
  | stopped result hphase =>
    simp only [State.Kept, hphase] at hkept
    obtain ⟨hoff, hm, hasked, hhalted⟩ := hkept
    refine hinv.after rfl (by simp [State.isEnded, hphase]) ⟨hoff, hm ▸ hasked, ?_⟩ rfl rfl rfl rfl
    simp [hhalted, hasked]
  | notStopped hphase =>
    simp only [State.Kept, hphase] at hkept
    obtain ⟨hoff, hm, hasked, hhalted⟩ := hkept
    refine hinv.after rfl (by simp [State.isEnded, hphase]) ⟨hoff, hm ▸ hasked, ?_⟩ rfl rfl rfl rfl
    simp [hhalted, hasked]
  | check hphase =>
    simp only [State.Kept, hphase] at hkept
    exact hinv.after rfl (fun _ => rfl) hkept rfl rfl rfl rfl
  | stop hreturned =>
    refine ⟨hkept, hinv.last, fun _ _ _ => rfl, fun _ => hreturned, fun k hget => ?_⟩
    simp only [Table.get?_insert] at hget
    split at hget
    · cases hget
    · exact hinv.resolved k hget
  | @poolStopped call hcall =>
    have hrequested := hinv.calls call _ hcall
    refine ⟨hkept, hinv.last, fun _ _ _ => hrequested, hinv.returned, fun k hget => ?_⟩
    simp only [Table.get?_insert] at hget
    split at hget
    · cases hget
    · exact hinv.resolved k hget
  | @resume call hcall hended =>
    have hrequested := hinv.calls call _ hcall
    exact ⟨hkept, hinv.last, fun _ _ _ => hrequested, hinv.returned, fun _ _ => hended⟩

theorem State.inv_reachable (h : (system options).Reachable s) : s.Inv options := by
  refine h.invariant (I := State.Inv options) ?_ ?_
  · rintro s rfl
    exact State.inv_initial
  · intro s e s' _ hinv _ hstep
    exact hinv.exec (step_of_exec hstep)

/-! ## How the promise settles -/

def Event.isDetach : Event → Bool
  | .detach => true
  | _ => false

def Event.isStop : Event → Bool
  | .stop => true
  | _ => false

/-- The error that an event of the pool gives as its reason to end. -/
def Event.cause : Event → Option Thrown
  | .fatalError error => asError error
  | .shutdown message => some (.error "Error" message)
  | _ => none

def Event.pool : Event → Option (Except Thrown Unit)
  | .poolSettled pool => some pool
  | _ => none

def Event.maintenanceError : Event → Option Thrown
  | .maintenanceStopped (.error error) => some error
  | _ => none

/-- The first reason that the pool gave while its listeners were set. -/
def firstCause : List Event → Option Thrown
  | [] => none
  | e :: past => if e.isDetach then none else e.cause.or (firstCause past)

/-- How the pool ended, unless its maintenance failed to stop. -/
def joined (past : List Event) : Except Thrown Unit :=
  match past.findSome? Event.maintenanceError with
  | some error => .error error
  | none => (past.findSome? Event.pool).getD (.ok ())

/-- What becomes of the promise after these events. -/
def outcome (options : Options) (past : List Event) : Except Failure Unit :=
  match joined past with
  | .error error => .error (.thrown error)
  | .ok _ =>
    if past.any Event.isStop then .ok () else .error (.workerStopped options.runnerName (firstCause past))

/-- The run has not failed to start. -/
def State.alive (s : State) : Bool :=
  match s.phase with
  | .cleaning _ _ | .failed _ => false
  | _ => true

/-- What the state knows of a run. -/
def State.Told (options : Options) (s : State) (past : List Event) : Prop :=
  match s.phase with
  | .cleaning _ _ | .failed _ => True
  | .starting | .running =>
    past.findSome? Event.pool = none ∧ past.findSome? Event.maintenanceError = none
  | .settled pool | .detached pool | .stopping pool _ =>
    past.findSome? Event.pool = some pool ∧ past.findSome? Event.maintenanceError = none
  | .stopped result => joined past = result
  | .ended result => ∃ before after, past = before ++ .check :: after ∧ result = outcome options before

structure Tracked (options : Options) (s : State) (past : List Event) : Prop where
  told : s.Told options past
  requested : s.requested = past.any Event.isStop
  listening : s.alive = true → s.listeners.fatal = past.all fun e => !e.isDetach
  cause : s.alive = true → s.cause = firstCause past

theorem firstCause_append : firstCause (past ++ [e]) =
    if past.all fun e => !e.isDetach then (firstCause past).or e.cause else firstCause past := by
  induction past with
  | nil => cases e <;> simp [firstCause, Event.isDetach, Event.cause]
  | cons e' past ih =>
    simp only [List.cons_append, firstCause, List.all_cons, ih]
    cases Bool.eq_false_or_eq_true e'.isDetach with
    | inl hdetach => simp [hdetach]
    | inr hdetach =>
      simp only [hdetach, Bool.false_eq_true, if_false, Bool.not_false, Bool.true_and]
      split
      · rw [Option.or_assoc]
      · rfl

/-- An event that says nothing of how the run ends. -/
theorem Tracked.append {s₀ : State} (h : Tracked options s₀ past)
    (htold : s.Told options (past ++ [e])) (hrequested : s.requested = (s₀.requested || e.isStop))
    (hlistening : s.alive = true → s₀.alive = true ∧
      s.listeners.fatal = (s₀.listeners.fatal && !e.isDetach) ∧
      s.cause = if s₀.listeners.fatal then s₀.cause.or e.cause else s₀.cause) :
    Tracked options s (past ++ [e]) where
  told := htold
  requested := by simp [hrequested, h.requested]
  listening halive := by
    obtain ⟨halive₀, hfatal, -⟩ := hlistening halive
    simp [hfatal, h.listening halive₀]
  cause halive := by
    obtain ⟨halive₀, -, hcause⟩ := hlistening halive
    rw [hcause, firstCause_append, h.listening halive₀, h.cause halive₀]

theorem findSome?_snoc {β : Type} (f : Event → Option β) :
    (past ++ [e]).findSome? f = (past.findSome? f).or (f e) := by
  rw [List.findSome?_append]
  congr 1
  cases hf : f e <;> simp [hf]

theorem State.Told.append (h : s.Told options past) (hphase : s'.phase = s.phase)
    (hpool : e.pool = none) (hmaintenance : e.maintenanceError = none) :
    s'.Told options (past ++ [e]) := by
  unfold State.Told at h ⊢
  rw [hphase]
  cases hs : s.phase with
  | cleaning error m => trivial
  | failed error => trivial
  | starting | running | settled pool | detached pool | stopping pool m =>
    simp only [hs] at h ⊢
    rw [findSome?_snoc, findSome?_snoc, hpool, hmaintenance, Option.or_none, Option.or_none]
    exact h
  | stopped result =>
    simp only [hs] at h ⊢
    unfold joined at h ⊢
    rw [findSome?_snoc, findSome?_snoc, hpool, hmaintenance, Option.or_none, Option.or_none]
    exact h
  | ended result =>
    simp only [hs] at h ⊢
    obtain ⟨before, after, rfl, hresult⟩ := h
    exact ⟨before, after ++ [e], by simp, hresult⟩

/-- Before the promise settles the verdict is that of the events so far. -/
theorem Tracked.verdict {result : Except Thrown Unit} (h : Tracked options s past)
    (hphase : s.phase = .stopped result) : s.verdict options result = outcome options past := by
  have htold := h.told
  simp only [State.Told, hphase] at htold
  have halive : s.alive = true := by simp [State.alive, hphase]
  unfold State.verdict outcome
  rw [htold]
  cases result with
  | error error => rfl
  | ok value => simp only [h.requested, h.cause halive]

theorem Tracked.exec (h : Tracked options s past) (hstep : Step options s e s') :
    Tracked options s' (past ++ [e]) := by
  have htold := h.told
  -- Steps that move neither the phase nor a listener.
  have hsame {s' : State} (hphase : s'.phase = s.phase) (hfatal : s'.listeners.fatal = s.listeners.fatal)
      (hrequested : s'.requested = (s.requested || e.isStop)) (hdetach : e.isDetach = false)
      (hpool : e.pool = none) (hmaintenance : e.maintenanceError = none)
      (hcause : s'.cause = if s.listeners.fatal then s.cause.or e.cause else s.cause) :
      Tracked options s' (past ++ [e]) := by
    apply h.append (htold.append hphase hpool hmaintenance) hrequested
    intro halive
    refine ⟨?_, by simp [hfatal, hdetach], hcause⟩
    simpa [State.alive, hphase] using halive
  cases hstep with
  | create hcreate hmaintain => exact hsame rfl rfl (by simp [Event.isStop]) rfl rfl rfl (by simp [Event.cause])
  | unheard _ => exact hsame rfl rfl (by simp [Event.isStop]) rfl rfl rfl (by simp [Event.cause])
  | fatalError error =>
    apply hsame s.because_phase ?_ ?_ rfl rfl rfl ?_ <;> unfold State.because <;> split <;>
      simp_all [Event.isStop, Event.cause]
  | shutdown message =>
    apply hsame s.because_phase ?_ ?_ rfl rfl rfl ?_ <;> unfold State.because <;> split <;>
      simp_all [Event.isStop, Event.cause]
  | stop hreturned => exact hsame rfl rfl (by simp [Event.isStop]) rfl rfl rfl (by simp [Event.cause])
  | poolStopped hcall => exact hsame rfl rfl (by simp [Event.isStop]) rfl rfl rfl (by simp [Event.cause])
  | resume hcall hended => exact hsame rfl rfl (by simp [Event.isStop]) rfl rfl rfl (by simp [Event.cause])
  | runResolved hphase =>
    simp only [State.Told, hphase] at htold
    apply h.append
    · simpa [State.Told, findSome?_snoc, Event.pool, Event.maintenanceError] using htold
    · simp [Event.isStop]
    · intro _
      simp [State.alive, hphase, Event.isDetach, Event.cause]
  | runRejected error hphase =>
    apply h.append
    · exact True.intro
    · simp [Event.isStop, State.detach, State.askMaintenance]
    · intro halive
      cases halive
  | cleaned result error' hphase =>
    apply h.append
    · exact True.intro
    · simp [Event.isStop, State.fail]
    · intro halive
      cases halive
  | notCleaned hphase =>
    apply h.append
    · exact True.intro
    · simp [Event.isStop, State.fail]
    · intro halive
      cases halive
  | poolSettled pool hphase =>
    simp only [State.Told, hphase] at htold
    apply h.append
    · simp [State.Told, Event.pool, Event.maintenanceError, htold]
    · simp [Event.isStop]
    · intro _
      simp [State.alive, hphase, Event.isDetach, Event.cause]
  | detach hphase =>
    simp only [State.Told, hphase] at htold
    apply h.append
    · simp [State.Told, Event.pool, Event.maintenanceError, htold]
    · simp [Event.isStop, State.detach]
    · intro _
      simp [State.alive, hphase, Event.isDetach, Event.cause, State.detach]
  | stopMaintenance hphase =>
    simp only [State.Told, hphase] at htold
    apply h.append
    · simp [State.Told, Event.pool, Event.maintenanceError, htold]
    · simp [Event.isStop, State.askMaintenance]
    · intro _
      simp [State.alive, hphase, Event.isDetach, Event.cause, State.askMaintenance]
  | stopped result hphase =>
    simp only [State.Told, hphase] at htold
    apply h.append
    · cases result <;> simp [State.Told, joined, Event.pool, Event.maintenanceError, htold]
    · simp [Event.isStop]
    · intro _
      simp [State.alive, hphase, Event.isDetach, Event.cause]
  | notStopped hphase =>
    simp only [State.Told, hphase] at htold
    apply h.append
    · simp [State.Told, joined, Event.pool, Event.maintenanceError, htold]
    · simp [Event.isStop]
    · intro _
      simp [State.alive, hphase, Event.isDetach, Event.cause]
  | check hphase =>
    apply h.append
    · exact ⟨past, [], rfl, h.verdict hphase⟩
    · simp [Event.isStop]
    · intro _
      simp [State.alive, hphase, Event.isDetach, Event.cause]

theorem tracked_reachable (h : (recorded options).Reachable (s, past)) : Tracked options s past := by
  suffices hall : ∀ p : State × List Event, (recorded options).Reachable p → Tracked options p.1 p.2 from
    hall (s, past) h
  intro p hp
  refine hp.invariant (I := fun p => Tracked options p.1 p.2) ?_ ?_
  · rintro ⟨s, past⟩ ⟨rfl, rfl⟩
    exact ⟨⟨rfl, rfl⟩, rfl, fun _ => rfl, fun _ => rfl⟩
  · rintro ⟨s, past⟩ e ⟨s', past'⟩ - htracked - hstep
    obtain ⟨hstep, hnote⟩ := TransitionSystem.observe_step_iff.mp hstep
    simp only at hstep hnote ⊢
    rw [hnote]
    exact htracked.exec (step_of_exec hstep)

/-! ## An emitter of its own -/

def Event.isCreate : Event → Bool
  | .create => true
  | _ => false

/-- The emitter told of one pool, and of none once `run()` had rejected. -/
structure Own (past : List Event) : Prop where
  one : past.countP Event.isCreate ≤ 1
  early : ∀ before error after, past = before ++ .runRejected error :: after →
    after.any Event.isCreate = false

/-- The `catch` block has found the maintenance `m`, and pools that came after it may have others. -/
def Found (s : State) (past : List Event) (m : Option ℕ) : Prop :=
  ∃ before error after, past = before ++ .runRejected error :: after ∧
    (after.any Event.isCreate = false → m = s.maintenance)

structure Counted (s : State) (past : List Event) : Prop where
  count : s.started ≤ past.countP Event.isCreate
  found : match s.phase with
    | .cleaning _ m => Found s past m
    | .failed _ => ∃ m : Option ℕ, s.asked = m.toList ∧ Found s past m
    | _ => True

theorem Found.append {m : Option ℕ} (h : Found s past m)
    (hlast : e.isCreate = false → s'.maintenance = s.maintenance) : Found s' (past ++ [e]) m := by
  obtain ⟨before, error, after, rfl, hfound⟩ := h
  refine ⟨before, error, after ++ [e], by simp, fun hnone => ?_⟩
  simp only [List.any_append, List.any_cons, List.any_nil, Bool.or_false, Bool.or_eq_false_iff] at hnone
  rw [hlast hnone.2]
  exact hfound hnone.1

theorem Counted.append (h : Counted s past)
    (hcount : s'.started ≤ s.started + if e.isCreate then 1 else 0)
    (hlast : e.isCreate = false → s'.maintenance = s.maintenance)
    (hphase : s'.phase = s.phase ∧ s'.asked = s.asked ∨ s'.alive = true) : Counted s' (past ++ [e]) where
  count := by
    rw [List.countP_append, List.countP_singleton]
    exact hcount.trans (Nat.add_le_add_right h.count _)
  found := by
    have hfound := h.found
    cases hphase with
    | inr halive =>
      unfold State.alive at halive
      split at halive <;> simp_all
    | inl hsame =>
      obtain ⟨hphase, hasked⟩ := hsame
      rw [hphase]
      split
      · rename_i hs
        rw [hs] at hfound
        exact hfound.append hlast
      · rename_i hs
        rw [hs] at hfound
        obtain ⟨m, hm, hfound⟩ := hfound
        exact ⟨m, hasked.trans hm, hfound.append hlast⟩
      · trivial

theorem Counted.exec (hinv : s.Inv options) (h : Counted s past) (hstep : Step options s e s') :
    Counted s' (past ++ [e]) := by
  have hkept := hinv.kept
  have hfound := h.found
  cases hstep with
  | create hcreate hmaintain => exact h.append (by simp [Event.isCreate]) (by simp [Event.isCreate]) (.inl ⟨rfl, rfl⟩)
  | unheard _ => exact h.append (Nat.le_add_right _ _) (fun _ => rfl) (.inl ⟨rfl, rfl⟩)
  | fatalError error =>
    obtain ⟨cause, heq⟩ := s.because_eq (asError error)
    rw [heq]
    exact h.append (Nat.le_add_right _ _) (fun _ => rfl) (.inl ⟨rfl, rfl⟩)
  | shutdown message =>
    obtain ⟨cause, heq⟩ := s.because_eq (some (.error "Error" message))
    rw [heq]
    exact h.append (Nat.le_add_right _ _) (fun _ => rfl) (.inl ⟨rfl, rfl⟩)
  | stop _ | poolStopped _ | resume _ _ =>
    exact h.append (Nat.le_add_right _ _) (fun _ => rfl) (.inl ⟨rfl, rfl⟩)
  | runResolved _ | poolSettled _ _ | detach _ | stopMaintenance _ | stopped _ _ | notStopped _ | check _ =>
    exact h.append (Nat.le_add_right _ _) (fun _ => rfl) (.inr rfl)
  | runRejected error hphase =>
    refine ⟨h.count.trans ?_, past, error, [], rfl, fun _ => rfl⟩
    rw [List.countP_append]
    exact Nat.le_add_right _ _
  | @cleaned error m result error' hphase =>
    simp only [State.Kept, hphase] at hkept
    simp only [hphase] at hfound
    refine ⟨h.count.trans ?_, some m, hkept.2.1, hfound.append fun _ => rfl⟩
    rw [List.countP_append]
    exact Nat.le_add_right _ _
  | notCleaned hphase =>
    simp only [State.Kept, hphase] at hkept
    simp only [hphase] at hfound
    refine ⟨h.count.trans ?_, none, hkept.2.1, hfound.append fun _ => rfl⟩
    rw [List.countP_append]
    exact Nat.le_add_right _ _

/-! ## The runner's contract -/

/-- `startRunner` rejected, or the promise has settled. -/
def State.finished (s : State) : Prop :=
  (∃ error, s.phase = .failed error) ∨ ∃ result, s.phase = .ended result

/-- The pool is starting or its promise is pending. -/
def State.busy (s : State) : Prop := s.phase = .starting ∨ s.phase = .running

structure Contract (options : Options) (s : State) (past : List Event) : Prop where
  /-- The promise settles as the events before say. -/
  settles : ∀ result, s.phase = .ended result →
    ∃ before after, past = before ++ .check :: after ∧ result = outcome options before
  silent : s.finished → s.listeners = .off
  /-- Maintenance outlives the pool, and is asked to stop once. -/
  outlives : s.busy → s.asked = []
  once : s.asked.length ≤ 1
  /-- Only the last maintenance is stopped. -/
  stopped : ∀ result, s.phase = .ended result → ((∀ m < s.started, m ∈ s.halted) ↔ s.started ≤ 1)
  owned : s.finished → Own past → ∀ m < s.started, m ∈ s.halted
  /-- `stop()` waits for the promise. -/
  waits : ∀ call, s.calls.get? call = some .resolved → ∃ result, s.phase = .ended result

theorem stopped_iff (hlast : s.maintenance = if s.started = 0 then none else some (s.started - 1)) :
    (∀ m < s.started, m ∈ s.maintenance.toList) ↔ s.started ≤ 1 := by
  rw [hlast]
  constructor
  · intro h
    by_contra hmany
    have hfirst := h 0 (by omega)
    rw [if_neg (by omega)] at hfirst
    simp only [Option.toList_some, List.mem_singleton] at hfirst
    omega
  · intro hone m hm
    rw [if_neg (by omega)]
    simp only [Option.toList_some, List.mem_singleton]
    omega

theorem State.ended_of_isEnded (h : s.isEnded = true) : ∃ result, s.phase = .ended result := by
  unfold State.isEnded at h
  split at h
  · rename_i result hphase
    exact ⟨result, hphase⟩
  · cases h

theorem counted_reachable (h : (recorded options).Reachable (s, past)) : Counted s past := by
  suffices hall : ∀ p : State × List Event, (recorded options).Reachable p → Counted p.1 p.2 from
    hall (s, past) h
  intro p hp
  refine hp.invariant (I := fun p => Counted p.1 p.2) ?_ ?_
  · rintro ⟨s, past⟩ ⟨rfl, rfl⟩
    exact ⟨le_refl _, trivial⟩
  · rintro ⟨s, past⟩ e ⟨s', past'⟩ hreach hcounted - hstep
    obtain ⟨hstep, hnote⟩ := TransitionSystem.observe_step_iff.mp hstep
    simp only at hstep hnote ⊢
    rw [hnote]
    have hinv := State.inv_reachable (hreach.of_observe fun _ _ _ => trivial)
    exact hcounted.exec hinv (step_of_exec hstep)

/--
How the promise of a runner settles is said by the events before; by then its listeners are off
and its maintenance, if the emitter told of no other pool, has been stopped, after the pool.
-/
theorem runner_contract (h : (recorded options).Reachable (s, past)) : Contract options s past := by
  have hinv : s.Inv options := State.inv_reachable (h.of_observe fun _ _ _ => trivial)
  have htold := (tracked_reachable h).told
  have hcounted := counted_reachable h
  have hkept := hinv.kept
  refine ⟨?_, ?_, ?_, ?_, ?_, ?_, ?_⟩
  · intro result hphase
    simpa only [State.Told, hphase] using htold
  · rintro (⟨error, hphase⟩ | ⟨result, hphase⟩) <;> simp only [State.Kept, hphase] at hkept <;>
      exact hkept.1
  · rintro (hphase | hphase) <;> simp only [State.Kept, hphase] at hkept <;> exact hkept.2.1
  · unfold State.Kept at hkept
    split at hkept
    · simp [hkept]
    · simp [hkept]
    · simp [hkept]
    · rename_i error m hphase
      rw [hkept.2.1]
      cases m <;> simp
    · exact hkept.2.2
    · simp [hkept]
    · rename_i pool m hphase
      rw [hkept.2.2.1]
      cases m <;> simp
    · rw [hkept.2.1]
      cases s.maintenance <;> simp
    · rw [hkept.2.1]
      cases s.maintenance <;> simp
  · intro result hphase
    simp only [State.Kept, hphase] at hkept
    rw [hkept.2.2, hkept.2.1]
    exact stopped_iff hinv.last
  · intro hfinished hown
    have hone : s.started ≤ 1 := hcounted.count.trans hown.one
    have hall := (stopped_iff hinv.last).mpr hone
    obtain ⟨error, hphase⟩ | ⟨result, hphase⟩ := hfinished
    · have hfound := hcounted.found
      simp only [hphase] at hfound
      simp only [State.Kept, hphase] at hkept
      obtain ⟨m, hm, before, error', after, hpast, hsame⟩ := hfound
      rw [hkept.2.1, hm, hsame (hown.early before error' after hpast)]
      exact hall
    · simp only [State.Kept, hphase] at hkept
      rw [hkept.2.2, hkept.2.1]
      exact hall
  · intro call hcall
    exact State.ended_of_isEnded (hinv.resolved call hcall)

namespace RunnerTrace

def reports : Options := ⟨true, true, some "reports"⟩

/-- A job could not be completed, and Graphile ended the pool as if it had been asked to. -/
def fatal : List Event :=
  [.create, .runResolved, .fatalError (.value (some "completeJob")), .shutdown "Shutting down",
    .poolSettled (.ok ()), .detach, .stopMaintenance, .maintenanceStopped (.ok ()), .check]

/-- The promise has told of the first error, under the name of the runner. -/
def toldOfFatal (s : State) : Bool :=
  match s.phase with
  | .ended (.error (.workerStopped (some runner) (some (.error _ text)))) =>
    runner = "reports" && text = "completeJob" && s.halted = [0]
  | _ => false

/-- Another pool on the emitter announces itself while this one is starting. -/
def shared : List Event :=
  [.create, .create, .runResolved, .stop, .poolStopped 0, .poolSettled (.ok ()), .detach,
    .stopMaintenance, .maintenanceStopped (.ok ()), .check, .resume 0]

def leavesOneRunning (s : State) : Bool :=
  match s.phase with
  | .ended (.ok _) => s.started = 2 && s.halted = [1] && s.calls.get? 0 = some .resolved
  | _ => false

end RunnerTrace

theorem runner_contract_fatal : ∃ s past, (recorded RunnerTrace.reports).Reachable (s, past) ∧
    RunnerTrace.toldOfFatal s = true ∧ Contract RunnerTrace.reports s past := by
  obtain ⟨⟨s, past⟩, hreach, htold⟩ := (recorded RunnerTrace.reports).exists_reachable_of_run
    RunnerTrace.fatal (fun p => RunnerTrace.toldOfFatal p.1) (s := (.initial RunnerTrace.reports, []))
    ⟨rfl, rfl⟩ (by decide)
  exact ⟨s, past, hreach, htold, runner_contract hreach⟩

/-- On a shared emitter a maintenance can outlive its runner. -/
theorem maintenance_outlives_shared : ∃ s, (system RunnerTrace.reports).Reachable s ∧
    RunnerTrace.leavesOneRunning s = true :=
  (system RunnerTrace.reports).exists_reachable_of_run RunnerTrace.shared
    RunnerTrace.leavesOneRunning (s := .initial RunnerTrace.reports) rfl (by decide)

/-! ## The runner in its lifecycle -/

/-- The status that the lifecycle keeps of the runner. -/
def State.status (s : State) : RunnerStatus :=
  match s.phase with
  | .starting | .cleaning _ _ => .launching
  | .failed _ => .refused
  | .ended (.ok _) => .ended false
  | .ended (.error _) => .ended true
  | _ => .alive s.requested

/-- What a step of the runner `id` is to a lifecycle. -/
inductive Seen (l : Lifecycle) (id : RunnerId) (s s' : State) : Prop where
  | hidden (h : s'.status = s.status)
  | launched {ok : Bool} {l' : Lifecycle} (h : l.launched id ok = some l')
      (hl : l'.runners.get? id = some s'.status)
  | asked (hl : (l.askStop id).runners.get? id = some s'.status)
  /-- The promise resolves only if `stop()` was called. -/
  | ended {failed : Bool} {l' : Lifecycle} (h : l.ended id failed = some l')
      (hl : l'.runners.get? id = some s'.status) (hasked : failed = false → s.requested = true)

theorem Lifecycle.launched_of_launching {l : Lifecycle} {id : RunnerId} (ok : Bool)
    (hl : l.runners.get? id = some .launching) : ∃ l', l.launched id ok = some l' ∧
      l'.runners.get? id = some (if ok then .alive false else .refused) := by
  refine ⟨_, by rw [Lifecycle.launched, hl], ?_⟩
  simp

theorem Lifecycle.ended_of_alive {l : Lifecycle} {id : RunnerId} {asked : Bool} (failed : Bool)
    (hl : l.runners.get? id = some (.alive asked)) : ∃ l', l.ended id failed = some l' ∧
      l'.runners.get? id = some (.ended failed) := by
  refine ⟨_, by rw [Lifecycle.ended, hl], ?_⟩
  simp

/-- Every step of the runner is one of the steps that the lifecycle takes for it, or hidden from it. -/
theorem runner_refines (hreach : (system options).Reachable s) (h : s.exec options e = some s')
    {l : Lifecycle} {id : RunnerId} (hl : l.runners.get? id = some s.status) : Seen l id s s' := by
  have hinv : s.Inv options := State.inv_reachable hreach
  cases step_of_exec h with
  | create _ _ | unheard _ | poolStopped _ | resume _ _ => exact .hidden rfl
  | fatalError error =>
    obtain ⟨cause, heq⟩ := s.because_eq (asError error)
    rw [heq]
    exact .hidden rfl
  | shutdown message =>
    obtain ⟨cause, heq⟩ := s.because_eq (some (.error "Error" message))
    rw [heq]
    exact .hidden rfl
  | runResolved hphase =>
    have hlaunching : l.runners.get? id = some .launching := by simpa [State.status, hphase] using hl
    obtain ⟨l', hl', hget⟩ := Lifecycle.launched_of_launching true hlaunching
    obtain ⟨hrequested, -⟩ := hinv.unrequested (by simp [State.returned, hphase])
    refine .launched hl' ?_
    simpa [State.status, hrequested] using hget
  | runRejected error hphase => exact .hidden (by simp [State.status, hphase])
  | poolSettled pool hphase => exact .hidden (by simp [State.status, hphase])
  | detach hphase => exact .hidden (by simp [State.status, State.detach, hphase])
  | stopMaintenance hphase => exact .hidden (by simp [State.status, State.askMaintenance, hphase])
  | stopped result hphase => exact .hidden (by simp [State.status, hphase])
  | notStopped hphase => exact .hidden (by simp [State.status, hphase])
  | cleaned result error' hphase =>
    have hlaunching : l.runners.get? id = some .launching := by simpa [State.status, hphase] using hl
    obtain ⟨l', hl', hget⟩ := Lifecycle.launched_of_launching false hlaunching
    exact .launched hl' hget
  | notCleaned hphase =>
    have hlaunching : l.runners.get? id = some .launching := by simpa [State.status, hphase] using hl
    obtain ⟨l', hl', hget⟩ := Lifecycle.launched_of_launching false hlaunching
    exact .launched hl' hget
  | stop hreturned =>
    apply Seen.asked
    rw [Lifecycle.askStop, Table.get?_update, if_pos rfl, hl]
    unfold State.returned at hreturned
    split at hreturned
    · cases hreturned
    · cases hreturned
    · cases hreturned
    · simp only [State.status]
      split <;> simp_all [RunnerStatus.ask]
  | @check result hphase =>
    have halive : l.runners.get? id = some (.alive s.requested) := by
      simpa [State.status, hphase] using hl
    cases result with
    | error error =>
      obtain ⟨l', hl', hget⟩ := Lifecycle.ended_of_alive true halive
      exact .ended hl' hget (by simp)
    | ok value =>
      cases hrequested : s.requested with
      | true =>
        obtain ⟨l', hl', hget⟩ := Lifecycle.ended_of_alive false halive
        refine .ended hl' ?_ fun _ => hrequested
        simpa [State.status, State.verdict, hrequested] using hget
      | false =>
        obtain ⟨l', hl', hget⟩ := Lifecycle.ended_of_alive true halive
        refine .ended hl' ?_ (by simp)
        simpa [State.status, State.verdict, hrequested] using hget

namespace RunnerTrace

/-- The promise resolves at the next step, in a lifecycle that has asked for it. -/
def resolving : List Event :=
  [.create, .runResolved, .stop, .poolStopped 0, .poolSettled (.ok ()), .detach, .stopMaintenance,
    .maintenanceStopped (.ok ())]

def lifecycle : Lifecycle := { Lifecycle.initial with runners := .insert ∅ 0 (.alive true) }

end RunnerTrace

theorem runner_refines_resolving : ∃ s s', (system RunnerTrace.reports).Reachable s ∧
    s.exec RunnerTrace.reports .check = some s' ∧ s'.status = .ended false ∧
    Seen RunnerTrace.lifecycle 0 s s' := by
  obtain ⟨s, hreach, hs⟩ := (system RunnerTrace.reports).exists_reachable_of_run RunnerTrace.resolving
    (fun s => s.status = .alive true ∧
      (s.exec RunnerTrace.reports .check).any fun s' => s'.status = .ended false)
    (s := .initial RunnerTrace.reports) rfl (by decide)
  obtain ⟨hstatus, hexec⟩ := of_decide_eq_true hs
  obtain ⟨s', hexec, hended⟩ := Option.any_eq_true _ _ |>.mp hexec
  refine ⟨s, s', hreach, hexec, of_decide_eq_true hended, runner_refines hreach hexec ?_⟩
  rw [hstatus]
  rfl

end BetterGraphileWorker.Runner
