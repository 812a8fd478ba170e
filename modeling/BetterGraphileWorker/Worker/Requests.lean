-- SUMMARY: What the code of an attempt and of an enqueue asks of the world: observer calls, and effects with their answers.
import BetterGraphileWorker.System
import BetterGraphileWorker.Library.Program

/-!
# Requests

The asynchronous code of `worker.ts`, `steps.ts` and `create-job.ts` is a routine over
these requests. A request is a call of something the user supplied to watch the library
(an observer call), or anything else its code awaits or reads: a statement, the handler,
the clock, a variable it shares with other code of the attempt. The world answers them.
-/

namespace BetterGraphileWorker

/-! ## Thrown values -/

/-- The `message` of an `Error`, which anything may be assigned to. -/
inductive Message where
  | text (text : String)
  /-- A value without `slice`, by the text that stands for it unless reading it throws. -/
  | other (text : Option String)
deriving DecidableEq

instance : Coe String Message := ⟨.text⟩

def Message.read : Message → Option String
  | .text s => some s
  | .other s => s

/-- A thrown value, by the classes that the library tells apart. -/
inductive Thrown where
  | error (name : String) (message : Message)
  /-- `NonRetriableError` and its subclasses. -/
  | nonRetriable (name : String) (message : Message)
  | retryAt (name : String) (message : Message) (runAt : Time) (cause : Option Thrown)
  | jobTimeout (timeout : ℕ)
  | stepPersistence (jobId : JobId)
  | jobContinued
  | jobSuspended (waitId : String)
  /-- Anything but an `Error`, with its `String(value)` unless that throws. -/
  | value (text : Option String)

namespace Thrown

/-- What `String(value)` throws when the value has no text. -/
def typeError : Thrown := .error "TypeError" "Cannot convert object to primitive value"

/-- `isNonRetriable`. -/
def isNonRetriable : Thrown → Bool
  | .nonRetriable _ _ => true
  | _ => false

/-- What went wrong: the cause of a `RetryAtError`, any other error itself. -/
def reported : Thrown → Thrown
  | .retryAt _ _ _ (some cause) => cause
  | thrown => thrown

/-- The name and message that hooks, logs, outcomes and reports record; none if reading them throws. -/
def describe : Thrown → Option (String × String)
  | .error name message | .nonRetriable name message | .retryAt name message _ _ =>
      message.read.map (name, ·)
  | .jobTimeout timeout =>
      some ("JobTimeoutError", "Job attempt exceeded its " ++ toString timeout ++ "ms timeout")
  | .stepPersistence jobId =>
      some ("StepPersistenceError", "Cannot checkpoint job \"" ++ toString jobId ++
        "\": its worker no longer owns the lock")
  | .jobContinued =>
      some ("JobContinuedSignal", "Job continued; code after ctx.continue() must not run")
  | .jobSuspended waitId =>
      some ("JobSuspendedSignal",
        "Waiting for the child jobs of \"" ++ waitId ++ "\"; not a failure")
  | .value (some text) => some ("Unknown", text)
  | .value none => none

/-- Its `error.message`, or its text, can be cut with `slice`. -/
def slices : Thrown → Bool
  | .error _ (.other _) | .nonRetriable _ (.other _) | .retryAt _ (.other _) _ _ => false
  | _ => true

/-- What cutting another message throws. -/
def noSlice : Thrown := .error "TypeError" "message.slice is not a function"

end Thrown

/-! ## Observers -/

abbrev Attributes := List (String × Json)

inductive LogLevel where
  | debug
  | info
  | warn
  | error
deriving DecidableEq

/-- The logger that `createLogger` returned, or the console. -/
inductive Logger where
  | custom
  | console
deriving DecidableEq

inductive Operation where
  | process
  | init
deriving DecidableEq

inductive JobStatus where
  | success
  | failed
deriving DecidableEq

structure JobFinishedEvent where
  queue : String
  status : JobStatus
  durationMs : Time
  permanentlyFailed : Bool
  jobId : JobId
  operation : Operation
  attempt : ℤ
  maxAttempts : ℤ
  errorType : Option String
  errorMessage : Option String
  retryAt : Option Time
  continued : Bool
  waiting : Bool

structure PermanentFailureEvent where
  error : Thrown
  queue : String
  jobId : JobId
  operation : Operation
  attempts : ℤ
  maxAttempts : ℤ
  payload : Option Json

structure EnqueueFailEvent where
  queue : String
  error : Thrown

structure CreateLoggerOptions where
  queue : String
  jobId : JobId
  attempt : ℤ

inductive SpanCall where
  | setAttribute (key : String) (value : Json)
  | setAttributes (attributes : Attributes)
  | setStatus (code : ℕ) (message : Option String)
  | addEvent (name : String) (attributes : Attributes)
  | recordException (error : Thrown)
  | end

/-- The instruments of `createQueueMetrics`. -/
inductive Metric where
  | jobs (queue : String) (status : JobStatus)
  | duration (value : Time) (queue : String) (status : JobStatus)
  | permanentlyFailed (queue : String)
  | enqueueFailed (queue : String)

inductive ObserverCall where
  | onJobFinished (event : JobFinishedEvent)
  | onPermanentFailure (event : PermanentFailureEvent)
  | onEnqueueFail (event : EnqueueFailEvent)
  | createLogger (options : CreateLoggerOptions)
  | log (logger : Logger) (level : LogLevel) (message : String) (attributes : Attributes)
  | metric (call : Metric)
  | span (call : SpanCall)
  /-- `console.error` of the last-resort diagnostics. -/
  | consoleError (error : Thrown)

/-- What an observer does with a call. Its promise, if it returns one, settles. -/
inductive Reaction where
  /-- It returns null or undefined; so does a hook that is not set. -/
  | nothing
  /-- It returns another value, or a promise that resolves. -/
  | value
  | rejected (error : Thrown)
  | threw (error : Thrown)

/-! ## Effects -/

/-- A row of the in-memory store of finished jobs. -/
structure CompletedJob where
  id : JobId
  queueName : String
  payload : Option Json
  status : JobStatus
  attempts : ℤ
  maxAttempts : ℤ
  createdAt : Time
  completedAt : Time
  durationMs : Time
  error : Option String

structure JobOptions where
  queueName : Option String
  runAt : Option Time
  maxAttempts : Option ℤ
  jobKey : Option String
  jobKeyMode : Option JobKeyMode
  priority : Option ℤ
  flags : Option (List String)
  validateOnEnqueue : Option Bool
  idempotencyKey : Option String
  /-- In milliseconds. -/
  idempotencyTtl : Option ℕ

/-- The spec that reaches the enqueue adapter. -/
structure EnqueueSpec where
  maxAttempts : ℤ
  priority : Option ℤ
  flags : Option (List String)
  queueName : Option String
  runAt : Option Time
  jobKey : Option String
  jobKeyMode : Option JobKeyMode
  idempotencyKey : Option String
  idempotencyTtl : Option ℕ

/-- What `resolveOne` returns. -/
structure ResolvedJob where
  task : String
  payload : Option Json
  spec : EnqueueSpec

/-- What `resolveMany` returns. -/
structure ResolvedJobs where
  specs : List ResolvedJob
  preserveRunAt : Bool
  idempotent : Bool

/-- One job as an enqueue statement carries it: its task and its envelope. -/
structure TracedJob where
  identifier : String
  payload : Json
  spec : EnqueueSpec

/-- A row of `bgw_add_jobs`; nothing checks that its id is not null. -/
structure IdempotentJob where
  id : Option JobId
  deduplicated : Bool

/-- The statement of a prepared enqueue, by what builds it. -/
inductive PreparedStatement where
  | skipped
  | addJob (job : TracedJob)
  | addJobs (jobs : List TracedJob) (preserveRunAt : Bool)
  | addIdempotentJobs (jobs : List TracedJob)

structure PreparedJob where
  queue : String
  count : ℕ
  skipped : Bool
  statement : PreparedStatement

/-- The arguments of a wait; `triggerAndWait` waits for one job, not a batch. -/
structure WaitArgs where
  id : String
  queue : String
  inputs : List (Option Json)
  batch : Bool
  timeout : Option ℤ

inductive Effect where
  /-- `Date.now()` and `new Date()`. -/
  | now
  /--
  A promise rejected that nobody handles: Node.js stops the process once the code that is ready
  has run, unless it is told not to.
  -/
  | unhandledRejection (error : Thrown)
  -- `executeTask`
  | heartbeatReady
  | runExecutor
  | endingsSettled
  | closeProgress (persist : Bool)
  | settleLockedJob (settle : Settle)
  | scheduleRetry (runAt : Time)
  | completedJob (job : CompletedJob)
  | disposeAttempt
  -- the context of the handler
  | assertActive
  /-- The active traceparent, if there is a well formed one. -/
  | traceparent
  /-- Wait until the endings before this one have settled. -/
  | enterEndings
  | leaveEndings
  | currentEnding
  | end (ending : Ending)
  /-- `ctx.continue()` can be called once. -/
  | claimContinue
  | progressValue
  | continueJob (runAt : Option Time) (traceparent : Option String) (recordOutcome : Bool)
      (progress : Option Json)
  | setProgress (value : Json)
  | flushProgress
  | cachedStep (id : String)
  /-- Join the work on a step, or start it. -/
  | awaitStep (id : String)
  | decodeStep (id : String) (output : Option Json)
  /-- Run a step's function and serialize its result. -/
  | stepOutput (id : String)
  | storeStep (id : String) (output : Option Json)
  | rememberStep (id : String) (checkpoint : WaitCheckpoint)
  | checkWaitQueue (queue : String)
  /-- Join the work on a wait, or start it. -/
  | awaitWait (wait : WaitArgs)
  | decodeWait (id queue : String) (checkpoint : Json)
  -- the transaction of a wait
  | beginWait
  | lockWait (waitId : String)
  | insertChildren (waitId : String) (count : ℕ) (timeout : Option ℤ) (prepared : PreparedJob)
  | leaveWait (waitId : String) (suspended : Bool) (group : FoundGroup)
  /-- Roll back; the error says so if the wait tables are missing. -/
  | rollback (error : Thrown)
  -- the bodies of the queues
  | parseQueuePayload (payload : Option Json)
  | processFn (payload : Option Json)
  | encodeQueueOutput (output : Option Json)
  | initFn
  -- enqueueing
  | shouldSkipEnqueue
  | resolveOne (name : String) (data : Option Json) (options : Option JobOptions) (cron : Bool)
      (defaultJobKeyMode : Option JobKeyMode)
  | resolveMany (name : String) (data : List (Option Json)) (options : Option JobOptions)
  | addJob (job : TracedJob)
  | addJobs (jobs : List TracedJob) (preserveRunAt : Bool)
  | addIdempotentJobs (jobs : List TracedJob)
  | queryRaw (prepared : PreparedJob)

inductive Request where
  | observer (call : ObserverCall)
  | effect (effect : Effect)

/-- What the world answers to an effect. -/
@[reducible] def Effect.Reply : Effect → Type
  | .now => Time
  | .heartbeatReady | .unhandledRejection _ | .completedJob _ | .disposeAttempt => Unit
  | .runExecutor => Except Thrown (Option Json)
  | .endingsSettled | .currentEnding => Option Ending
  | .closeProgress _ => Except Thrown Unit
  | .settleLockedJob _ => Except Thrown Bool
  | .scheduleRetry _ => Except Thrown Time
  | .assertActive | .claimContinue => Except Thrown Unit
  | .traceparent => Option String
  | .enterEndings | .leaveEndings | .end _ | .rememberStep _ _ => Unit
  | .progressValue => Option Json
  | .continueJob _ _ _ _ => Except Thrown JobId
  | .setProgress _ | .flushProgress => Except Thrown Unit
  | .cachedStep _ => Option StepCacheEntry
  | .awaitStep _ | .decodeStep _ _ | .stepOutput _ => Except Thrown (Option Json)
  | .storeStep _ _ | .checkWaitQueue _ => Except Thrown Unit
  | .awaitWait _ => Except Thrown WaitCheckpoint
  | .decodeWait _ _ _ => Except Thrown Json
  | .beginWait => Except Thrown Unit
  | .lockWait _ => Except Thrown (Option FoundGroup)
  | .insertChildren _ _ _ _ => Except Thrown FoundGroup
  | .leaveWait _ _ _ => Except Thrown Entered
  | .rollback _ => Thrown
  | .parseQueuePayload _ | .processFn _ | .encodeQueueOutput _ => Except Thrown (Option Json)
  | .initFn => Except Thrown (List (Option Json))
  | .shouldSkipEnqueue => Except Thrown Bool
  | .resolveOne _ _ _ _ _ => Except Thrown ResolvedJob
  | .resolveMany _ _ _ => Except Thrown ResolvedJobs
  | .addJob _ => Except Thrown JobId
  | .addJobs _ _ => Except Thrown (List JobId)
  | .addIdempotentJobs _ => Except Thrown (List IdempotentJob)
  | .queryRaw _ => Except Thrown (List (Option JobId))

@[reducible] def Request.Reply : Request → Type
  | .observer _ => Reaction
  | .effect e => e.Reply

end BetterGraphileWorker
