-- SUMMARY: executeTask of worker.ts as a routine: one attempt from its claim to the value or error that Graphile acts on.
import BetterGraphileWorker.Data.Tracing
import BetterGraphileWorker.Database.AddJobs
import BetterGraphileWorker.Worker.Observers

/-!
# Executing a task

`executeTask` runs the handler of a claimed job and decides what becomes of the attempt.
Its `try`, `catch` and `finally` blocks are routines of their own; the variables they
share are its locals. What Graphile does next follows from how it settles: it completes
the job of a task that returns and fails the job of one that throws.
-/

namespace BetterGraphileWorker

/-- The variables that the blocks of `executeTask` share. -/
structure Locals where
  /-- The error that the `catch` block caught. -/
  caught : Option Thrown
  status : JobStatus
  errorType : Option String
  errorMessage : Option String
  permanent : Bool
  continued : Bool
  suspended : Option String
  retryAt : Option Time

def Locals.initial : Locals where
  caught := none
  status := .success
  errorType := none
  errorMessage := none
  permanent := false
  continued := false
  suspended := none
  retryAt := none

abbrev Task (α : Type) := Code Locals α

structure ExecuteTaskOptions where
  queueName : String
  helpers : HelpersJob
  /-- `helpers.job.task_identifier`. -/
  taskIdentifier : String
  /-- `helpers.job.created_at`. -/
  createdAt : Time
  operation : Operation
  extraAttributes : Attributes
  runtime : Runtime

namespace ExecuteTaskOptions

variable (o : ExecuteTaskOptions)

def payload : Json := o.helpers.payload

/-- The producer's link, if the payload carries one. -/
def link : Option Tracing.TraceContext := (Tracing.extractProducerLink o.payload).bind (·.1)

def cleanPayload : Option Json :=
  if Payload.isPayloadEnvelope o.payload then Payload.cleanPayload o.payload else none

/-- A wait enqueued this job: report its final state to the parent. -/
def waited : Bool := Payload.isPayloadEnvelope o.payload && Payload.waited o.payload

/-- The claim spent the last attempt. -/
def lastAttempt : Bool := o.helpers.maxAttempts ≤ o.helpers.attempts

end ExecuteTaskOptions

/-- Keeps one huge error from flooding the log. -/
def loggedErrorMessageLimit : ℕ := 500

/-- The characters in a number of UTF-16 code units; half of a surrogate pair is left out. -/
def takeUnits : ℕ → List Char → List Char
  | _, [] => []
  | limit, c :: cs =>
    let units := if c.toNat < 65536 then 1 else 2
    if units ≤ limit then c :: takeUnits (limit - units) cs else []

def trimmed (message : String) : String :=
  String.ofList (takeUnits loggedErrorMessageLimit message.toList)

def unsupportedPayload : Thrown :=
  .nonRetriable "NonRetriableError"
    ("Unsupported job payload: expected a version-2 envelope. Drain old jobs before upgrading " ++
      "and enqueue through the worker/client APIs.")

def assertPayloadEnvelope {σ : Type} (value : Json) : Code σ Unit :=
  if Payload.isPayloadEnvelope value then pure () else Routine.throw unsupportedPayload

/-! ## Settling -/

def settledOutcome : ChildReport → SettledOutcome
  | .ok _ => .completed
  | .failed _ message => .failed message

/-- The statement that `settle` issues. -/
def ExecuteTaskOptions.settlement (o : ExecuteTaskOptions) (settled : ChildReport) (row : RowMode) :
    Settle where
  outcome := if o.runtime.jobOutcomes then some (settledOutcome settled) else none
  report := if o.waited then some settled else none
  row := row

/-- Otherwise Graphile completes or fails the job itself. -/
def ExecuteTaskOptions.settles (o : ExecuteTaskOptions) (row : RowMode) : Bool :=
  o.runtime.jobOutcomes || o.waited || row = .exhaust

def settle (o : ExecuteTaskOptions) (settled : ChildReport) (row : RowMode) : Task Bool :=
  if o.settles row then await (perform (.settleLockedJob (o.settlement settled row))) else pure true

/-! ## The try block -/

/-- `endings.settled()`. -/
def settledEnding {σ : Type} : Code σ (Option Ending) := perform .endingsSettled

def isEndingOrRace : Thrown → Bool
  | .jobContinued | .jobSuspended _ | .jobTimeout _ => true
  | _ => false

/-- A committed ending decides the run, even against a timeout or an error the handler threw. -/
def runHandler (o : ExecuteTaskOptions) (logger : Logger) : Task (Option Json) :=
  Routine.tryCatch (await (perform .runExecutor)) fun error => do
    match ← settledEnding with
    | none => Routine.throw error
    | some _ =>
      if !isEndingOrRace error then
        error.withText fun text => logger.log .warn "job.error_after_ending"
          [("event", .str "job.error_after_ending"), ("job_id", .str (toString o.helpers.id)),
            ("error_message", .str (trimmed text))]
      pure none

/-- The run ended at a wait: the job keeps its row. -/
def suspendRun (waitId : String) : Task (Option String) := do
  Routine.modify fun locals => { locals with suspended := some waitId }
  Routine.tryCatch (await (perform (.closeProgress true))) fun _ => pure ()
  callSpan (.setAttributes [("graphile.waiting", .bool true)])
  callSpan (.setStatus statusOk none)
  pure (some waitId)

def ExecuteTaskOptions.finishedJob (o : ExecuteTaskOptions) (status : JobStatus) (completedAt : Time)
    (durationMs : Time) (error : Option String) : CompletedJob where
  id := o.helpers.id
  queueName := o.queueName
  payload := o.cleanPayload
  status := status
  attempts := o.helpers.attempts
  maxAttempts := o.helpers.maxAttempts
  createdAt := o.createdAt
  completedAt := completedAt
  durationMs := durationMs
  error := error

/-- Like a checkpoint, a completion that cannot be recorded fails the attempt. -/
def settleCompletion (o : ExecuteTaskOptions) (output : Option Json) : Task Unit := do
  if !(← settle o (.ok output) .delete) then Routine.throw (.stepPersistence o.helpers.id)

/-- Store the completed job. -/
def storeCompletion (o : ExecuteTaskOptions) (startTime : Time) : Task Unit := do
  let now ← currentTime
  callSpan (.setAttributes [("graphile.duration_ms", .num (now - startTime : ℤ))])
  callSpan (.setStatus statusOk none)
  let completedAt ← currentTime
  perform (.completedJob (o.finishedJob .success completedAt (now - startTime) none))

/-- The run completed or continued. -/
def completeRun (o : ExecuteTaskOptions) (startTime : Time) (continued : Bool)
    (output : Option Json) : Task (Option String) := do
  Routine.tryCatch (await (perform (.closeProgress false))) fun _ => pure ()
  if !continued then settleCompletion o output
  storeCompletion o startTime
  pure none

/-- The `try` block: the wait id if the run ended at a wait. -/
def runAttempt (o : ExecuteTaskOptions) (logger : Logger) (startTime : Time) :
    Task (Option String) := do
  assertPayloadEnvelope o.payload
  let output ← runHandler o logger
  -- also when the handler caught its signal: the ending is already committed
  match ← settledEnding with
  | some (.waiting waitId) => suspendRun waitId
  | some (.continued _) =>
    Routine.modify fun locals => { locals with continued := true }
    completeRun o startTime true output
  | none => completeRun o startTime false output

/-! ## The catch block -/

/-- Retries read the latest progress. -/
def closeFailedProgress (o : ExecuteTaskOptions) (logger : Logger) : Task Unit :=
  Routine.tryCatch (await (perform (.closeProgress true))) fun progressError =>
    progressError.withText fun text => logger.log .warn "job.progress.write_failed"
      [("event", .str "job.progress.write_failed"), ("job_id", .str (toString o.helpers.id)),
        ("error_message", .str (trimmed text))]

/-- Run the permanent failure hook and store the failed job. -/
def reportPermanentFailure (o : ExecuteTaskOptions) (reported : Thrown) (message : String)
    (durationMs : Time) : Task Unit := do
  observe (awaitObserver (.onPermanentFailure {
    error := reported
    queue := o.queueName
    jobId := o.helpers.id
    operation := o.operation
    attempts := o.helpers.attempts
    maxAttempts := o.helpers.maxAttempts
    payload := o.cleanPayload }))
  let completedAt ← currentTime
  perform (.completedJob (o.finishedJob .failed completedAt durationMs (some message)))

/-- `scheduleRetry` for a `RetryAtError` with attempts left. -/
def retryLater (error : Thrown) : Task Unit :=
  match error with
  | .retryAt _ _ runAt _ => do
    let retryAt ← await (perform (.scheduleRetry runAt))
    Routine.modify fun locals => { locals with retryAt := some retryAt }
  | _ => pure ()

/-- Best effort: a failure to record the failure is logged. -/
def recordFailure (o : ExecuteTaskOptions) (logger : Logger) (failure : ChildReport) (row : RowMode) :
    Task Unit :=
  Routine.tryCatch (settle o failure row >>= fun _ => pure ()) fun recordError =>
    recordError.withText fun text => logger.log .error "job.outcome.failed"
      [("queue", .str o.queueName), ("job_id", .str (toString o.helpers.id)), ("error", .str text)]

/-- Retention must hold, like a checkpoint. -/
def retainJob (o : ExecuteTaskOptions) (failure : ChildReport) : Task Unit := do
  if !(← settle o failure .exhaust) then Routine.throw (.stepPersistence o.helpers.id)

/-- The end of the `catch` block, once the failure's verdict is known. -/
def settleFailure (o : ExecuteTaskOptions) (logger : Logger) (error : Thrown) (failure : ChildReport)
    (permanent : Bool) : Task (Option String) := do
  if !permanent then retryLater error
  if error.isNonRetriable && !o.runtime.discard then
    retainJob o failure
    Routine.throw error
  else
    if permanent then
      recordFailure o logger failure (if error.isNonRetriable then .delete else .keep)
    -- discard: acknowledge, so Graphile deletes the job
    if error.isNonRetriable then pure none else Routine.throw error

/-- The `catch` block. -/
def failAttempt (o : ExecuteTaskOptions) (logger : Logger) (startTime : Time) (error : Thrown) :
    Task (Option String) := do
  Routine.modify fun locals => { locals with caught := some error, status := .failed }
  closeFailedProgress o logger
  let now ← currentTime
  match error.reported.describe with
  | none => Routine.throw .typeError
  | some (errorType, message) =>
    Routine.modify fun locals =>
      { locals with errorType := some errorType, errorMessage := some message }
    callSpan (.setStatus statusError (some message))
    callSpan (.recordException error.reported)
    callSpan (.setAttributes
      [("graphile.duration_ms", .num (now - startTime : ℤ)), ("error.type", .str errorType)])
    let permanent := error.isNonRetriable || o.lastAttempt
    Routine.modify fun locals => { locals with permanent := permanent }
    if permanent then reportPermanentFailure o error.reported message (now - startTime)
    settleFailure o logger error (.failed errorType message) permanent

/-! ## The finally block -/

def ExecuteTaskOptions.finishedEvent (o : ExecuteTaskOptions) (locals : Locals) (durationMs : Time) :
    JobFinishedEvent where
  queue := o.queueName
  status := locals.status
  durationMs := durationMs
  permanentlyFailed := locals.status = .failed && locals.permanent
  jobId := o.helpers.id
  operation := o.operation
  attempt := o.helpers.attempts
  maxAttempts := o.helpers.maxAttempts
  errorType := locals.errorType
  errorMessage := locals.errorMessage
  retryAt := locals.retryAt
  continued := locals.continued
  waiting := locals.suspended.isSome

def JobStatus.toJson : JobStatus → Json
  | .success => .str "success"
  | .failed => .str "failed"

def Operation.toJson : Operation → Json
  | .process => .str "process"
  | .init => .str "init"

/-- The attributes of the `job.completed` log. -/
def JobFinishedEvent.logged (event : JobFinishedEvent) : Attributes :=
  [("event", .str "job.completed"), ("queue", .str event.queue),
    ("job_id", .str (toString event.jobId)), ("operation", event.operation.toJson),
    ("attempt", .num event.attempt), ("max_attempts", .num event.maxAttempts),
    ("duration_ms", .num event.durationMs), ("status", event.status.toJson)] ++
  (if event.continued then [("continued", .bool true)] else []) ++
  (if event.waiting then [("waiting", .bool true)] else []) ++
  (event.retryAt.map fun t => ("retry_at", Json.str (toISOString (t / 1000)))).toList ++
  (event.errorType.map fun name => ("error_type", Json.str name)).toList ++
  (event.errorMessage.map fun message => ("error_message", Json.str (trimmed message))).toList

/-- The log cuts the message of the error that the `catch` block caught. -/
def Locals.uncuttable (locals : Locals) : Bool :=
  locals.errorMessage.isSome && locals.caught.any fun error => !error.reported.slices

/-- The `finally` block. What it throws replaces the result of the others. -/
def finishAttempt (o : ExecuteTaskOptions) (logger : Logger) (startTime : Time) : Task Unit := do
  perform .disposeAttempt
  let now ← currentTime
  let locals ← Routine.get
  let event := o.finishedEvent locals (now - startTime)
  observe (onJobFinished o.runtime.metrics event)
  if locals.uncuttable then Routine.throw .noSlice
  else logger.log (if locals.status = .success then .info else .error) "job.completed" event.logged

/-! ## A handler that settles after its timeout -/

def ExecuteTaskOptions.handlerSettled (o : ExecuteTaskOptions) (durationMs : Time) : Attributes :=
  [("event", .str "job.timed_out_handler_settled"), ("queue", .str o.queueName),
    ("job_id", .str (toString o.helpers.id)), ("attempt", .num o.helpers.attempts),
    ("duration_ms", .num durationMs)]

/-- What is logged of it; nobody handles the error of a value without a text that can be cut. -/
def logHandlerSettled {σ : Type} (o : ExecuteTaskOptions) (logger : Logger) (startTime : Time)
    (error : Option Thrown) : Code σ Unit := do
  let now ← currentTime
  let attributes := o.handlerSettled (now - startTime)
  match error with
  | none => logger.log .warn "job.timed_out_handler_settled" attributes
  | some error =>
    match error.describe with
    | none => perform (.unhandledRejection .typeError)
    | some (_, message) =>
      if error.slices then
        logger.log .warn "job.timed_out_handler_settled"
          (attributes ++ [("error_message", .str (trimmed message))])
      else perform (.unhandledRejection .noSlice)

/-! ## The task -/

def ExecuteTaskOptions.spanAttributes (o : ExecuteTaskOptions) : Attributes :=
  [("messaging.system", .str "graphile-worker"),
    ("messaging.destination.name", .str o.queueName),
    ("messaging.message.id", .str (toString o.helpers.id)),
    ("messaging.operation", o.operation.toJson), ("graphile.queue", .str o.queueName),
    ("graphile.job_id", .str (toString o.helpers.id)),
    ("graphile.task_identifier", .str o.taskIdentifier),
    ("graphile.attempts", .num o.helpers.attempts),
    ("graphile.max_attempts", .num o.helpers.maxAttempts)] ++ o.extraAttributes

/-- Name the producer's span in the job's. -/
def linkProducer (o : ExecuteTaskOptions) : Task Unit :=
  match o.link with
  | none => pure ()
  | some context => do
    callSpan (.setAttribute "messaging.producer.trace_id" (.str context.traceId))
    callSpan (.setAttribute "messaging.producer.span_id" (.str context.spanId))

/-- The body of the job's span. -/
def taskBody (o : ExecuteTaskOptions) : Task (Option String) := do
  let startTime ← currentTime
  callSpan (.setAttributes o.spanAttributes)
  linkProducer o
  let logger ← jobLogger ⟨o.queueName, o.helpers.id, o.helpers.attempts⟩
  Routine.tryFinally
    (Routine.tryCatch (runAttempt o logger startTime) (failAttempt o logger startTime))
    (finishAttempt o logger startTime)

def executeTask (o : ExecuteTaskOptions) : Task Unit := do
  perform .heartbeatReady
  match ← withActiveSpan (taskBody o) with
  -- Graphile's failure update unlocks the job and keeps its row
  | some waitId => Routine.throw (.jobSuspended waitId)
  | none => pure ()

end BetterGraphileWorker
