-- SUMMARY: Observers cannot change outcomes: what the world sees of the library does not depend on who answers its observer calls.
import BetterGraphileWorker.Library.Pool
import BetterGraphileWorker.Worker.SameCode

/-!
# Unobserved

The two-run property of the observers. Everything but observer calls is visible: the
statements and their contents, the clock, and how every call of the library settles. The
only answer that matters is a rejected promise that the library drops, since Node.js
stops the process for it.
-/

namespace BetterGraphileWorker

/-! ## Calls of the library -/

/-- A call through the context of an attempt, or one of the work that its calls start. -/
inductive ContextCall where
  | createJob (name : String) (data : Option Json) (options : Option JobOptions)
  | createJobs (name : String) (data : List (Option Json)) (options : Option JobOptions)
  | progressSet (value : Json)
  | progressFlush
  | continue (runAt : Except Thrown (Option Time))
  | log (level : LogLevel) (message : String) (attributes : Attributes)
  | span (call : SpanCall)
  | stepRun (id : String)
  | stepWork (id : String) (codec : Bool)
  | wait (wait : WaitArgs)
  | waitWork (wait : WaitArgs)
  | process (payload : Option Json)
  | init (queue : String)
  | handlerSettled (o : ExecuteTaskOptions) (startTime : Time) (error : Option Thrown)

/-- A call of a client or a worker outside of its jobs. -/
inductive EnqueueCall where
  | createJob (name : String) (data : Option Json) (options : Option JobOptions)
  | createJobs (name : String) (data : List (Option Json)) (options : Option JobOptions)
  | triggerCron (name : String) (options : Option JobOptions)
  | prepareJob (name : String) (data : Option Json) (options : Option JobOptions)
  | prepareJobs (name : String) (data : List (Option Json)) (options : Option JobOptions)
  | enqueueInTransaction (name : String) (data : Option Json) (options : Option JobOptions)
      (transactionalJobKeyMode : Option JobKeyMode) (required : Bool)

/-- A call; one through a context names its attempt. -/
inductive Call where
  | executeTask (o : ExecuteTaskOptions)
  | context (attempt : ℕ) (runtime : Runtime) (call : ContextCall)
  | enqueue (runtime : Runtime) (call : EnqueueCall)

/-- What a call settles with. -/
inductive Value where
  | nothing
  | output (value : Option Json)
  | results (value : Json)
  | checkpoint (value : WaitCheckpoint)
  | jobId (id : Option JobId)
  | jobIds (ids : List (Option JobId))
  | prepared (job : PreparedJob)

abbrev Settling := Program Request Request.Reply (Except Thrown Value)

/-- Run a routine for its value. -/
def settling {σ α : Type} (value : α → Value) (x : Code σ α) (s : σ) : Settling :=
  (x s).bind fun r => .done (r.1.map value)

def ContextCall.program (runtime : Runtime) (logger : Logger) : ContextCall → Settling
  | createJob name data options => settling .jobId (contextCreateJob runtime name data options) ()
  | createJobs name data options =>
      settling .jobIds (contextCreateJobs runtime name data options) ()
  | progressSet value => settling (fun _ => .nothing) (BetterGraphileWorker.progressSet value) ()
  | progressFlush => settling (fun _ => .nothing) BetterGraphileWorker.progressFlush ()
  | .continue runAt => settling (fun _ => .nothing) (contextContinue runtime runAt) ()
  | log level message attributes =>
      settling (fun _ => .nothing) (logger.log level message attributes) ()
  | span call => settling (fun _ => .nothing) (callSpan call) ()
  | stepRun id => settling .output (BetterGraphileWorker.stepRun id) ()
  | stepWork id codec => settling .output (BetterGraphileWorker.stepWork id codec) ()
  | wait w => settling .results (contextWait w) ()
  | waitWork w => settling .checkpoint (BetterGraphileWorker.waitWork w runtime) ()
  | process payload => settling .output (processExecutor payload) ()
  | init queue => settling .output (initExecutor runtime logger queue) ()
  | handlerSettled o startTime error =>
      settling (fun _ => .nothing) (logHandlerSettled o logger startTime error) ()

def EnqueueCall.program (runtime : Runtime) : EnqueueCall → Settling
  | createJob name data options => settling .jobId (enqueueOne runtime name data options false) ()
  | createJobs name data options => settling .jobIds (enqueueMany runtime name data options) ()
  | triggerCron name options => settling .jobId (enqueueOne runtime name none options true) ()
  | prepareJob name data options =>
      settling .prepared (prepareOne runtime name data options none) ()
  | prepareJobs name data options => settling .prepared (prepareMany runtime name data options) ()
  | enqueueInTransaction name data options mode required =>
      settling .jobId (enqueueOneInTransaction runtime name data options mode required) ()

/-- The program of a call; `loggers` says which attempts got a logger from `createLogger`. -/
def Call.program (loggers : ℕ → Logger) : Call → Settling
  | executeTask o => settling (fun _ => .nothing) (BetterGraphileWorker.executeTask o) .initial
  | context attempt runtime call => call.program runtime (loggers attempt)
  | enqueue runtime call => call.program runtime

/-! ## Alike programs -/

private theorem alike_settling {σ α : Type} {value : α → Value} {x y : Code σ α} {s : σ}
    (h : Same x y) : Program.Alike observerCalls Eq (settling value x s) (settling value y s) := by
  refine (h s).bind ?_
  rintro ⟨_, _⟩ ⟨_, _⟩ ⟨hr, rfl⟩
  cases hr with
  | ok h => exact .done (congrArg (fun a => Except.ok (value a)) h)
  | error => exact .done rfl

private theorem ContextCall.alike {runtime : Runtime} {logger logger' : Logger} (call : ContextCall) :
    Program.Alike observerCalls Eq (call.program runtime logger) (call.program runtime logger') := by
  cases call with
  | createJob => exact alike_settling same_contextCreateJob
  | createJobs => exact alike_settling same_contextCreateJobs
  | progressSet => exact alike_settling same_progressSet
  | progressFlush => exact alike_settling same_progressFlush
  | «continue» => exact alike_settling same_contextContinue
  | log => exact alike_settling same_loggers
  | span => exact alike_settling same_callSpan
  | stepRun => exact alike_settling same_stepRun
  | stepWork => exact alike_settling same_stepWork
  | wait => exact alike_settling same_contextWait
  | waitWork => exact alike_settling same_waitWork
  | process => exact alike_settling same_processExecutor
  | init => exact alike_settling same_initExecutor
  | handlerSettled => exact alike_settling same_logHandlerSettled

private theorem EnqueueCall.alike {runtime : Runtime} (call : EnqueueCall) :
    Program.Alike observerCalls Eq (call.program runtime) (call.program runtime) := by
  cases call with
  | createJob | triggerCron => exact alike_settling same_enqueueOne
  | createJobs => exact alike_settling same_enqueueMany
  | prepareJob => exact alike_settling same_prepareOne
  | prepareJobs => exact alike_settling same_prepareMany
  | enqueueInTransaction => exact alike_settling same_enqueueOneInTransaction

private theorem Call.alike {loggers loggers' : ℕ → Logger} (call : Call) :
    Program.Alike observerCalls Eq (call.program loggers) (call.program loggers') := by
  cases call with
  | executeTask => exact alike_settling same_executeTask
  | context _ _ call => exact call.alike
  | enqueue _ call => exact call.alike

/-! ## The two-run property -/

/-- Whoever makes the calls, answers the effects and sees what comes of both. -/
abbrev Surroundings := World Request Request.Reply Call (Except Thrown Value)

abbrev ObserverSet := Watcher observerCalls

/-- What the surroundings may see under a set of observers. -/
def seen (loggers : ℕ → Logger) (W : Surroundings) (A : ObserverSet) :
    Set (List (Shown Request Request.Reply Call (Except Thrown Value))) :=
  Pool.traces (Call.program loggers) W A

/-- In no run does a promise of an instrument or of `createLogger` reject. -/
def NoDroppedRejection (loggers : ℕ → Logger) (W : Surroundings) (A : ObserverSet) : Prop :=
  Pool.Calm (Call.program loggers) (Pool.initial W A)

/--
Under two sets of observers that reject no promise the library drops, the same statements
are issued and every call settles in the same way. The errors of enqueues are their own.
-/
theorem outcomes_unobserved {W : Surroundings} {A B : ObserverSet} {loggers loggers' : ℕ → Logger}
    (hA : NoDroppedRejection loggers W A) (hB : NoDroppedRejection loggers' W B) :
    seen loggers W A = seen loggers' W B ∧
      ∀ (α : Type) (runtime : Runtime) (name : String) (operation : Code Unit α),
        Same operation operation → Same (observed runtime name operation) operation := by
  constructor
  · exact Pool.traces_eq hA hB fun call => call.alike
  · intro α runtime name operation hsame
    exact observed_same hsame

/-! ### A rejected measurement -/

/-- A client that measures its queues enqueues a job. -/
def measuredEnqueue : Call := .enqueue ⟨false, false, true⟩ (.createJob "mail" none none)

/-- A job that runs in the same process starts a step. -/
def pendingStep : Call := .context 0 ⟨false, false, false⟩ (.stepWork "charge" false)

def flagDown : Except Thrown Value := .error (.error "Error" "flag service down")

/-- `shouldSkipEnqueue` throws; the step returns, and its checkpoint is written. -/
def flagAnswers : (r : Request) → Option r.Reply
  | .effect .shouldSkipEnqueue => some (.error (.error "Error" "flag service down"))
  | .effect (.stepOutput _) => some (.ok none)
  | .effect (.storeStep _ _) => some (.ok ())
  | .effect (.unhandledRejection _) => some ()
  | _ => none

/--
Node.js reports an unhandled rejection when the code that is ready has run, and stops: what
has its answers settles, nothing else is called or answered.
-/
def stopsNode : Request → Bool
  | .effect (.unhandledRejection _) => true
  | _ => false

def nodeWorld : Surroundings :=
  Pool.stoppingWorld (fun call => call = measuredEnqueue ∨ call = pendingStep) flagAnswers stopsNode

/-- Observers that react to a call in a fixed way. -/
def reacting (react : ObserverCall → Reaction) :
    (r : Request) → observerCalls.requests r → r.Reply
  | .observer call, _ => react call
  | .effect _, hi => hi.elim

def observing (react : ObserverCall → Reaction) : ObserverSet := Pool.fixedWatcher (reacting react)

/-- Every observer throws. -/
def throwing : ObserverSet := observing fun _ => .threw (.error "Error" "observer down")

def silent : ObserverCall → Reaction := fun _ => .nothing

/-- The instruments return promises that reject. -/
def rejecting : ObserverCall → Reaction
  | .metric _ => .rejected (.error "Error" "exporter down")
  | _ => .nothing

theorem outcomes_unobserved_throwing :
    seen (fun _ => .console) nodeWorld throwing =
        seen (fun _ => .custom) nodeWorld (observing silent) ∧
      ∀ (α : Type) (runtime : Runtime) (name : String) (operation : Code Unit α),
        Same operation operation → Same (observed runtime name operation) operation := by
  apply outcomes_unobserved
  · apply Pool.calm_of_within
    rintro _ (_ | _) hi
    · intro e h
      cases h
    · exact hi.elim
  · apply Pool.calm_of_within
    rintro _ (_ | _) hi
    · intro e h
      cases h
    · exact hi.elim

private abbrev Silent := Pool.Stopping (Except Thrown Value)
  (fun call => call = measuredEnqueue ∨ call = pendingStep) flagAnswers stopsNode (reacting silent)

/-- Under silent observers the step's function returns and its checkpoint is written after the throw. -/
private theorem step_shown : ∃ t₁, t₁ ++ [.settled 1 flagDown,
      .served 0 (.effect (.stepOutput "charge")) (.ok none),
      .served 0 (.effect (.storeStep "charge" none)) (.ok ())] ∈
    seen (fun _ => .console) nodeWorld (observing silent) := by
  let programs : Call → Settling := Call.program fun _ => .console
  let s₀ : Silent := Pool.initial _ _
  let s₁ : Silent := s₀.spawn (programs pendingStep) true
  let s₂ : Silent := s₁.spawn (programs measuredEnqueue) true
  obtain ⟨t₁, ht₁⟩ := Pool.Stopping.exists_shows_settled (f := programs) (s := s₂) (k := 1)
    (a := flagDown) rfl rfl rfl
  refine ⟨.called pendingStep :: .called measuredEnqueue :: t₁, ?_⟩
  refine .shown (.call (s := s₀) (c := pendingStep) (w := true) ⟨.inr rfl, rfl, rfl⟩) ?_
  refine .shown (.call (s := s₁) (c := measuredEnqueue) (w := true) ⟨.inl rfl, rfl, rfl⟩) ?_
  apply ht₁
  refine .shown (.serve (w := true) rfl id ⟨rfl, rfl, rfl⟩) ?_
  exact .shown (.serve (w := true) rfl id ⟨rfl, rfl, rfl⟩) .nil

/--
When its measurement rejects, the enqueue throws its own error, and nothing that was
pending is answered any more: the step of the running job never writes its checkpoint.
-/
theorem rejected_measurement_stops :
    (∀ t₁ k t₂,
      t₁ ++ .settled k flagDown :: t₂ ∈ seen (fun _ => .console) nodeWorld (observing rejecting) →
        ∀ l ∈ t₂, ∃ j a, l = .settled j a) ∧
      seen (fun _ => .console) nodeWorld (observing rejecting) ≠
        seen (fun _ => .console) nodeWorld (observing silent) := by
  have hstops : ∀ t₁ k t₂,
      t₁ ++ .settled k flagDown :: t₂ ∈ seen (fun _ => .console) nodeWorld (observing rejecting) →
        ∀ l ∈ t₂, ∃ j a, l = .settled j a := by
    intro t₁ k t₂ ht
    apply Pool.Stopping.settled_of_mem (by intro _ k p hp; cases hp) ht
    rintro call (rfl | rfl) hplay
    · have hstopped : (measuredEnqueue.program fun _ => .console).play
          (Pool.Stopping.answers (H := observerCalls) flagAnswers stopsNode (reacting rejecting)) true =
          some (flagDown, false) := rfl
      cases hstopped.symm.trans hplay
    · have hstep : (pendingStep.program fun _ => .console).play
          (Pool.Stopping.answers (H := observerCalls) flagAnswers stopsNode (reacting rejecting)) true =
          some (.ok (.output none), true) := rfl
      cases hstep.symm.trans hplay
  refine ⟨hstops, fun h => ?_⟩
  obtain ⟨t₁, ht⟩ := step_shown
  rw [← h] at ht
  obtain ⟨j, a, hsettled⟩ := hstops t₁ 1 _ ht _ List.mem_cons_self
  cases hsettled

end BetterGraphileWorker
