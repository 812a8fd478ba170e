-- SUMMARY: The enqueue operations of create-job.ts as routines: createJob, createJobs, prepareJob, prepareJobs and enqueueInTransaction.
import BetterGraphileWorker.Worker.Observers

/-!
# Enqueueing

The operations that `bindCreateJob` returns. Each resolves its jobs, traces them in a
producer span, and issues or prepares one statement; `observed` reports what it throws.
Resolving a job calls the queue's schema and `deriveJobOptions` and no observer, so here
the world answers it.
-/

namespace BetterGraphileWorker

variable {σ α : Type}

def observed (runtime : Runtime) (name : String) (operation : Code σ α) : Code σ α :=
  Routine.tryCatch operation fun error => do
    observe (onEnqueueFail runtime.metrics ⟨name, error⟩)
    Routine.throw error

def producerSpan (fn : Code σ α) : Code σ α :=
  withActiveSpan <| Routine.tryCatch
    (do
      let result ← fn
      callSpan (.setStatus statusOk none)
      pure result)
    fun error =>
      match error.describe with
      | none => Routine.throw .typeError
      | some (_, message) => do
        callSpan (.setStatus statusError (some message))
        callSpan (.recordException error)
        Routine.throw error

/-! ## Envelopes -/

/-- The envelope of a resolved job, with the active traceparent. -/
def ResolvedJob.trace (job : ResolvedJob) : Code σ TracedJob := do
  let traceparent ← perform .traceparent
  pure ⟨job.task, Payload.injectTraceContext job.payload traceparent, job.spec⟩

def traceAll : List ResolvedJob → Code σ (List TracedJob)
  | [] => pure []
  | job :: jobs => do
    let traced ← job.trace
    let rest ← traceAll jobs
    pure (traced :: rest)

/-- The idempotent path calls add_job per item, so each keyed spec carries the batch mode. -/
def withBatchKeyMode (jobs : List TracedJob) (preserveRunAt : Bool) : List TracedJob :=
  jobs.map fun job =>
    if preserveRunAt && job.spec.jobKey.isSome then
      { job with spec := { job.spec with jobKeyMode := some .preserveRunAt } }
    else job

/-! ## Enqueueing -/

/-- The id of a job as an attribute, and in a list of ids. -/
def idAttribute (id : Option JobId) : Json := id.elim .null fun id => .str (toString id)

def idText (id : Option JobId) : String := id.elim "" toString

/-- Add one job with an idempotency key. -/
def addIdempotentJob (job : TracedJob) : Code σ (Option JobId) := do
  match ← await (perform (.addIdempotentJobs [job])) with
  | [] => Routine.throw (.error "Error" "Idempotent enqueue returned no job")
  | added :: _ => do
    callSpan (.setAttributes
      [("job.id", idAttribute added.id), ("job.deduplicated", .bool added.deduplicated)])
    pure added.id

def addTracedJob (job : TracedJob) : Code σ JobId := do
  let id ← await (perform (.addJob job))
  callSpan (.setAttribute "job.id" (.str (toString id)))
  pure id

def enqueueOne (runtime : Runtime) (name : String) (data : Option Json)
    (options : Option JobOptions) (cron : Bool) : Code σ (Option JobId) :=
  observed runtime name do
    if ← await (perform .shouldSkipEnqueue) then pure none else
      let job ← await (perform (.resolveOne name data options cron none))
      producerSpan do
        callSpan (.setAttributes [("job.queue", .str job.task), ("job.batch", .bool false),
          ("job.max_attempts", .num job.spec.maxAttempts)])
        let traced ← job.trace
        if job.spec.idempotencyKey.isSome then addIdempotentJob traced
        else do
          let id ← addTracedJob traced
          pure (some id)

def addTracedJobs (jobs : List TracedJob) (preserveRunAt idempotent : Bool) :
    Code σ (List (Option JobId)) :=
  if idempotent then do
    let added ← await (perform (.addIdempotentJobs (withBatchKeyMode jobs preserveRunAt)))
    callSpan (.setAttribute "job.deduplicated_count"
      (.num (added.filter (·.deduplicated)).length))
    pure (added.map (·.id))
  else do
    let ids ← await (perform (.addJobs jobs preserveRunAt))
    pure (ids.map some)

def enqueueMany (runtime : Runtime) (name : String) (data : List (Option Json))
    (options : Option JobOptions) : Code σ (List (Option JobId)) :=
  observed runtime name do
    if ← await (perform .shouldSkipEnqueue) then pure [] else
      let jobs ← await (perform (.resolveMany name data options))
      producerSpan do
        callSpan (.setAttributes [("job.queue", .str name), ("job.batch", .bool true),
          ("job.batch_size", .num data.length)])
        if jobs.specs.isEmpty then pure [] else
          let traced ← traceAll jobs.specs
          let ids ← addTracedJobs traced jobs.preserveRunAt jobs.idempotent
          callSpan (.setAttribute "job.created_count" (.num ids.length))
          if ids.length ≤ 50 then
            callSpan (.setAttribute "job.ids" (.str (",".intercalate (ids.map idText))))
          pure ids

/-! ## Preparing -/

def skippedJob (queue : String) : PreparedJob where
  queue := queue
  count := 0
  skipped := true
  statement := .skipped

def prepareOne (runtime : Runtime) (name : String) (data : Option Json)
    (options : Option JobOptions) (defaultJobKeyMode : Option JobKeyMode) : Code σ PreparedJob :=
  observed runtime name do
    if ← await (perform .shouldSkipEnqueue) then pure (skippedJob name) else
      let job ← await (perform (.resolveOne name data options false defaultJobKeyMode))
      producerSpan do
        callSpan (.setAttributes [("job.queue", .str job.task), ("job.batch", .bool false)])
        let traced ← job.trace
        pure {
          queue := job.task
          count := 1
          skipped := false
          statement := if job.spec.idempotencyKey.isSome then .addIdempotentJobs [traced]
            else .addJob traced }

def prepareMany (runtime : Runtime) (name : String) (data : List (Option Json))
    (options : Option JobOptions) : Code σ PreparedJob :=
  observed runtime name do
    if ← await (perform .shouldSkipEnqueue) then pure (skippedJob name) else
      let jobs ← await (perform (.resolveMany name data options))
      if jobs.specs.isEmpty then pure { skippedJob name with skipped := false } else
        producerSpan do
          callSpan (.setAttributes [("job.queue", .str name), ("job.batch", .bool true),
            ("job.batch_size", .num data.length)])
          let traced ← traceAll jobs.specs
          pure {
            queue := name
            count := jobs.specs.length
            skipped := false
            statement := if jobs.idempotent then
                .addIdempotentJobs (withBatchKeyMode traced jobs.preserveRunAt)
              else .addJobs traced jobs.preserveRunAt }

/-! ## Transactions of the caller -/

def enqueueSkipped (queue : String) : Thrown :=
  .error "EnqueueSkippedError"
    ("Required enqueue of \"" ++ queue ++ "\" was skipped because shouldSkipEnqueue() returned true")

def enqueueCount (queue : String) (expected actual : ℕ) : Thrown :=
  .error "EnqueueCountError"
    ("Enqueue of \"" ++ queue ++ "\" returned " ++ toString actual ++ " of " ++ toString expected ++
      " jobs, likely a jobKey race; retry the transaction")

/-- Run a prepared statement in the caller's transaction. -/
def enqueueInTransaction (prepared : PreparedJob) (required : Bool) : Code σ (List JobId) :=
  if prepared.skipped && required then Routine.throw (enqueueSkipped prepared.queue)
  else if prepared.count = 0 then pure []
  else do
    let rows ← await (perform (.queryRaw prepared))
    let ids := rows.filterMap id
    if ids.length ≠ prepared.count then
      Routine.throw (enqueueCount prepared.queue prepared.count ids.length)
    else pure ids

def enqueueOneInTransaction (runtime : Runtime) (task : String) (payload : Option Json)
    (options : Option JobOptions) (transactionalJobKeyMode : Option JobKeyMode) (required : Bool) :
    Code σ (Option JobId) := do
  let prepared ← prepareOne runtime task payload options transactionalJobKeyMode
  let ids ← enqueueInTransaction prepared required
  pure ids.head?

end BetterGraphileWorker
