-- SUMMARY: What a handler gets to call, as routines: ctx.continue(), progress, steps and waits of worker.ts, steps.ts and private-jobs.ts.
import BetterGraphileWorker.Worker.Enqueue

/-!
# The context of a handler

The handler belongs to the world: it calls these routines whenever it likes, and sees how
they settle. The work on a step or a wait is a routine of its own, since calls with the
same id share it.
-/

namespace BetterGraphileWorker

variable {σ α : Type}

/-! ## Enqueueing -/

/-- `ctx.createJob`. -/
def contextCreateJob (runtime : Runtime) (name : String) (data : Option Json)
    (options : Option JobOptions) : Code σ (Option JobId) := do
  await (perform .assertActive)
  enqueueOne runtime name data options false

/-- `ctx.createJobs`. -/
def contextCreateJobs (runtime : Runtime) (name : String) (data : List (Option Json))
    (options : Option JobOptions) : Code σ (List (Option JobId)) := do
  await (perform .assertActive)
  enqueueMany runtime name data options

/-! ## Progress -/

/-- `ctx.progress.set`. -/
def progressSet (value : Json) : Code σ Unit := do
  await (perform .assertActive)
  await (perform (.setProgress value))

/-- `ctx.progress.flush`. -/
def progressFlush : Code σ Unit := do
  await (perform .assertActive)
  await (perform .flushProgress)

/-! ## Endings -/

/-- `endings.run`: one transaction at a time. -/
def runEnding (work : Code σ α) : Code σ α := do
  perform .enterEndings
  Routine.tryFinally work (perform .leaveEndings)

def continuedAfterWait : Thrown :=
  .error "Error"
    "ctx.continue() cannot run after a wait suspended this run; do not catch its rejection"

/-- The transaction of `ctx.continue()`. -/
def continueInEnding (runtime : Runtime) (runAt : Option Time) (traceparent : Option String) :
    Code σ JobId := do
  if (← perform .currentEnding).isSome then Routine.throw continuedAfterWait
  -- the continuation receives the latest value, so a lagging write does not matter
  Routine.tryCatch (await (perform (.closeProgress false))) fun _ => pure ()
  let progress ← perform .progressValue
  let id ← await (perform (.continueJob runAt traceparent runtime.jobOutcomes progress))
  perform (.end (.continued id))
  pure id

/-- `ctx.continue()`; `runAt` is what `parseContinueRunAt` makes of its options. -/
def contextContinue (runtime : Runtime) (runAt : Except Thrown (Option Time)) : Code σ Unit := do
  await (perform .assertActive)
  await (perform .claimContinue)
  let runAt ← Routine.ofExcept runAt
  let traceparent ← perform .traceparent
  let id ← runEnding (continueInEnding runtime runAt traceparent)
  callSpan (.setAttributes [("graphile.continued", .bool true),
    ("graphile.continuation_job_id", .str (toString id))])
  Routine.throw .jobContinued

/-! ## Steps -/

/-- `begin`. -/
def beginStep (id : String) : Code σ Unit := do
  await (perform .assertActive)
  if id.isEmpty then
    Routine.throw (.nonRetriable "NonRetriableError" "Step id must be a non-empty string")

/-- `event`. -/
def stepEvent (name id : String) : Code σ Unit :=
  Routine.tryCatch (callSpan (.addEvent name [("step.id", .str id)])) fun _ => pure ()

def StepCacheEntry.value : StepCacheEntry → Option Json
  | .output value => some value
  | .void => none

/-- `ctx.step.run`. -/
def stepRun (id : String) : Code σ (Option Json) := do
  beginStep id
  match ← perform (.cachedStep id) with
  | some cached => do
    stepEvent "step.cache_hit" id
    await (perform (.decodeStep id cached.value))
  | none => do
    let output ← await (perform (.awaitStep id))
    await (perform (.decodeStep id output))

/-- The work that calls of `ctx.step.run` with one id share. -/
def stepWork (id : String) (codec : Bool) : Code σ (Option Json) :=
  Routine.tryCatch
    (do
      let output ← await (perform (.stepOutput id))
      if codec then let _ ← await (perform (.decodeStep id output))
      await (perform (.storeStep id output))
      stepEvent "step.completed" id
      pure output)
    fun error => do
      stepEvent "step.failed" id
      Routine.throw error

/-! ## Waits -/

/-- Prepare the children of a wait. -/
def WaitArgs.prepare (wait : WaitArgs) (runtime : Runtime) : Code σ PreparedJob :=
  if wait.batch then prepareMany runtime wait.queue wait.inputs none
  else prepareOne runtime wait.queue wait.inputs.head?.join none none

def skippedChildren (waitId : String) : Thrown :=
  .error "Error" ("shouldSkipEnqueue skipped the children of wait \"" ++ waitId ++ "\"")

/-- The group of a wait, created with its children if there is none. -/
def findOrCreateGroup (wait : WaitArgs) (runtime : Runtime) : Code σ FoundGroup := do
  match ← await (perform (.lockWait wait.id)) with
  | some group => pure group
  | none => do
    let prepared ← wait.prepare runtime
    if prepared.skipped then Routine.throw (skippedChildren wait.id)
    await (perform (.insertChildren wait.id wait.inputs.length wait.timeout prepared))

/-- `enterWait`, whose `prepare` runs inside the transaction. -/
def enterWaitCode (wait : WaitArgs) (runtime : Runtime) (suspended : Bool) : Code σ Entered := do
  await (perform .beginWait)
  Routine.tryCatch
    (do
      let group ← findOrCreateGroup wait runtime
      await (perform (.leaveWait wait.id suspended group)))
    fun error => do
      let reason ← perform (.rollback error)
      Routine.throw reason

def waitAfterContinue : Thrown :=
  .error "Error" "A wait cannot start after ctx.continue(); do not catch its rejection"

/-- The ending of the run lets a wait enter, and says whether an earlier one suspended the run. -/
def assertWaitable : Option Ending → Code σ Bool
  | some (.continued _) => Routine.throw waitAfterContinue
  | some (.waiting _) => pure true
  | none => pure false

/-- The transaction of a wait. -/
def waitInEnding (wait : WaitArgs) (runtime : Runtime) : Code σ WaitCheckpoint := do
  await (perform .assertActive)
  let ended ← perform .currentEnding
  let suspended ← assertWaitable ended
  match ← enterWaitCode wait runtime suspended with
  | .suspended => do
    perform (.end (.waiting wait.id))
    Routine.throw (.jobSuspended wait.id)
  | .finished checkpoint => pure checkpoint

/-- The work that waits with one id share. -/
def waitWork (wait : WaitArgs) (runtime : Runtime) : Code σ WaitCheckpoint := do
  await (perform (.checkWaitQueue wait.queue))
  let checkpoint ← runEnding (waitInEnding wait runtime)
  perform (.rememberStep wait.id checkpoint)
  stepEvent "step.completed" wait.id
  pure checkpoint

/-- `Number.MAX_SAFE_INTEGER`. -/
def maxSafeInteger : ℤ := 9007199254740991

def invalidTimeout : Thrown :=
  .error "RangeError" ("Wait timeout must be an integer between 1 and " ++ toString maxSafeInteger)

/-- `ctx.step.triggerAndWait` and `ctx.step.batchTriggerAndWait`. -/
def contextWait (wait : WaitArgs) : Code σ Json := do
  beginStep wait.id
  if wait.timeout.any fun timeout => timeout < 1 || maxSafeInteger < timeout then
    Routine.throw invalidTimeout
  match ← perform (.cachedStep wait.id) with
  | some cached => do
    stepEvent "step.cache_hit" wait.id
    await (perform (.decodeWait wait.id wait.queue (cached.value.getD .null)))
  | none =>
    if wait.inputs.isEmpty then pure (.arr []) else
      let checkpoint ← await (perform (.awaitWait wait))
      await (perform (.decodeWait wait.id wait.queue checkpoint.toJson))

/-! ## The executors of `buildTaskList` -/

/-- The handler of a queue, between its input and its output schema. -/
def processExecutor (payload : Option Json) : Code σ (Option Json) := do
  let validated ← await (perform (.parseQueuePayload payload))
  let output ← await (perform (.processFn validated))
  await (perform (.encodeQueueOutput output))

def initOptions : JobOptions where
  queueName := none
  runAt := none
  maxAttempts := none
  jobKey := none
  jobKeyMode := none
  priority := none
  flags := none
  validateOnEnqueue := some true
  idempotencyKey := none
  idempotencyTtl := none

/-- The initializer of a queue, whose items are enqueued on the queue. -/
def initExecutor (runtime : Runtime) (logger : Logger) (queue : String) :
    Code σ (Option Json) := do
  let items ← await (perform .initFn)
  logger.log .info "Init function returned items" [("count", .num items.length)]
  callSpan (.setAttribute "graphile.init_items_count" (.num items.length))
  if !items.isEmpty then
    let ids ← contextCreateJobs runtime queue items (some initOptions)
    logger.log .info "Enqueued items for processing" [("jobCount", .num ids.length)]
  -- initializers are never waited on, so they have no output
  pure none

end BetterGraphileWorker
