-- SUMMARY: Up to observer calls, every routine of the library is the same code under all observers.
import BetterGraphileWorker.Worker.Context
import BetterGraphileWorker.Worker.ExecuteTask
import BetterGraphileWorker.Worker.Guards

/-!
# Same code

Which requests are observer calls, and why they make no difference to the code around
them. Each routine differs from itself in observer calls only, also under another logger:
whether `createLogger` returned one is up to the observers.
-/

namespace BetterGraphileWorker

/-! ## Observer calls -/

/-- Observers may return, throw or reject, but for calls whose rejections are dropped. -/
def observerCalls : Hidden Request Request.Reply where
  requests
    | .observer _ => True
    | .effect _ => False
  answers
    | .observer call, reaction =>
        ∀ e : Thrown, reaction = Reaction.rejected e → call.dropsRejection = false
    | .effect _, _ => True

instance : DecidablePred observerCalls.requests
  | .observer _ => isTrue trivial
  | .effect _ => isFalse id

/-- The routines differ in observer calls only. -/
abbrev Same {σ α : Type} (x y : Code σ α) : Prop := Routine.Alike observerCalls Eq x y

variable {σ α β : Type}

theorem coversGuards_observerCalls : CoversGuards observerCalls where
  calls _ _ := trivial
  rejections call e hdrops hanswer := by
    have hkept := hanswer e rfl
    simp [hdrops] at hkept

private theorem unseen_span (call : SpanCall) : (callSpan call : Code σ Unit).Unseen observerCalls :=
  coversGuards_observerCalls.callSpan call

private theorem unseen_log (logger : Logger) (level : LogLevel) (message : String)
    (attributes : Attributes) :
    (logger.log level message attributes : Code σ Unit).Unseen observerCalls :=
  coversGuards_observerCalls.log logger level message attributes

theorem same_perform {e : Effect} : Same (perform e : Code σ e.Reply) (perform e) := by
  have hvisible : ¬observerCalls.requests (.effect e) := id
  exact fun _ => .visible hvisible fun _ => .done ⟨.ok rfl, rfl⟩

/-- What the world throws is thrown under all observers. -/
theorem same_await {x y : Code σ (Except Thrown α)} (h : Same x y) : Same (await x) (await y) :=
  h.bind_eq fun _ => Routine.alike_ofExcept

theorem same_guarded {x y : Code σ Unit} (h : Same x y) :
    Same (Routine.tryCatch x fun _ => pure ()) (Routine.tryCatch y fun _ => pure ()) :=
  h.tryCatch fun _ => Routine.alike_pure rfl

theorem same_callSpan {call : SpanCall} : Same (callSpan call : Code σ Unit) (callSpan call) :=
  (unseen_span call).alike (unseen_span call)

/-- Calls of a span around the same code. -/
theorem same_span {call : SpanCall} {f g : Code σ α} (h : Same f g) :
    Same (callSpan call >>= fun _ => f) (callSpan call >>= fun _ => g) :=
  (unseen_span call).bind_bind (unseen_span call) fun _ _ => h

/-! ## Hooks -/

private theorem unseen_onEnqueueFail {runtime : Runtime} {event : EnqueueFailEvent} :
    (observe (onEnqueueFail runtime.metrics event) : Code σ Unit).Unseen observerCalls := by
  apply coversGuards_observerCalls.observe
  have hhook : (awaitObserver (.onEnqueueFail event) : Code σ Unit).Watches observerCalls :=
    watches_awaitObserver trivial
  cases hmetrics : runtime.metrics with
  | false => exact hhook
  | true =>
    have hmetric := coversGuards_observerCalls.addMetric (σ := σ) (.enqueueFailed event.queue)
    exact (CoversGuards.record hmetric).watches.bind fun _ => hhook

private theorem unseen_onJobFinished {metrics : Bool} {event : JobFinishedEvent} :
    (observe (onJobFinished metrics event) : Code σ Unit).Unseen observerCalls := by
  apply coversGuards_observerCalls.observe
  have hhook : (awaitObserver (.onJobFinished event) : Code σ Unit).Watches observerCalls :=
    watches_awaitObserver trivial
  cases metrics with
  | false => exact hhook
  | true => exact (coversGuards_observerCalls.recordJobFinished event).watches.bind fun _ => hhook

/-- `onEnqueueFail` never replaces the error of an enqueue. -/
theorem observed_same {runtime : Runtime} {name : String} {operation operation' : Code σ α}
    (h : Same operation operation') : Same (observed runtime name operation) operation' := by
  apply h.rethrown
  intro e
  exact unseen_onEnqueueFail.alike_bind fun _ => Routine.alike_throw

theorem same_observed {runtime : Runtime} {name : String} {x y : Code σ α} (h : Same x y) :
    Same (observed runtime name x) (observed runtime name y) := by
  apply h.tryCatch
  intro e
  exact unseen_onEnqueueFail.bind_bind unseen_onEnqueueFail fun _ _ => Routine.alike_throw

/-! ## Enqueueing -/

theorem same_withActiveSpan {x y : Code σ α} (h : Same x y) :
    Same (withActiveSpan x) (withActiveSpan y) :=
  h.tryFinally same_callSpan

theorem same_producerSpan {x y : Code σ α} (h : Same x y) :
    Same (producerSpan x) (producerSpan y) := by
  apply same_withActiveSpan
  refine Routine.Alike.tryCatch ?_ fun e => ?_
  · exact h.bind_eq fun _ => same_span (Routine.alike_pure rfl)
  · split
    · exact Routine.alike_throw
    · exact same_span (same_span Routine.alike_throw)

private theorem same_trace {job : ResolvedJob} : Same (job.trace : Code σ TracedJob) job.trace :=
  same_perform.bind_eq fun _ => Routine.alike_pure rfl

private theorem same_traceAll {jobs : List ResolvedJob} :
    Same (traceAll jobs : Code σ (List TracedJob)) (traceAll jobs) := by
  induction jobs with
  | nil => exact Routine.alike_pure rfl
  | cons job jobs ih =>
    refine same_trace.bind_eq fun _ => ?_
    exact ih.bind_eq fun _ => Routine.alike_pure rfl

private theorem same_addIdempotentJob {job : TracedJob} :
    Same (addIdempotentJob job : Code σ (Option JobId)) (addIdempotentJob job) := by
  refine (same_await same_perform).bind_eq fun added => ?_
  cases added with
  | nil => exact Routine.alike_throw
  | cons _ _ => exact same_span (Routine.alike_pure rfl)

private theorem same_addTracedJob {job : TracedJob} :
    Same (addTracedJob job : Code σ JobId) (addTracedJob job) :=
  (same_await same_perform).bind_eq fun _ => same_span (Routine.alike_pure rfl)

private theorem same_addTracedJobs {jobs : List TracedJob} {preserveRunAt idempotent : Bool} :
    Same (addTracedJobs jobs preserveRunAt idempotent : Code σ (List (Option JobId)))
      (addTracedJobs jobs preserveRunAt idempotent) := by
  unfold addTracedJobs
  split
  · exact (same_await same_perform).bind_eq fun _ => same_span (Routine.alike_pure rfl)
  · exact (same_await same_perform).bind_eq fun _ => Routine.alike_pure rfl

variable {runtime : Runtime} {name : String} {options : Option JobOptions}

theorem same_enqueueOne {data : Option Json} {cron : Bool} :
    Same (enqueueOne runtime name data options cron : Code σ (Option JobId))
      (enqueueOne runtime name data options cron) := by
  apply same_observed
  refine (same_await same_perform).bind_eq fun skip => ?_
  cases skip with
  | true => exact Routine.alike_pure rfl
  | false =>
    refine (same_await same_perform).bind_eq fun job => same_producerSpan ?_
    refine same_span (same_trace.bind_eq fun traced => ?_)
    split
    · exact same_addIdempotentJob
    · exact same_addTracedJob.bind_eq fun _ => Routine.alike_pure rfl

theorem same_enqueueMany {data : List (Option Json)} :
    Same (enqueueMany runtime name data options : Code σ (List (Option JobId)))
      (enqueueMany runtime name data options) := by
  apply same_observed
  refine (same_await same_perform).bind_eq fun skip => ?_
  cases skip with
  | true => exact Routine.alike_pure rfl
  | false =>
    refine (same_await same_perform).bind_eq fun jobs => same_producerSpan (same_span ?_)
    split
    · exact Routine.alike_pure rfl
    · refine same_traceAll.bind_eq fun traced => same_addTracedJobs.bind_eq fun ids => same_span ?_
      split
      · exact same_span (Routine.alike_pure rfl)
      · exact Routine.alike_pure rfl

theorem same_prepareOne {data : Option Json} {mode : Option JobKeyMode} :
    Same (prepareOne runtime name data options mode : Code σ PreparedJob)
      (prepareOne runtime name data options mode) := by
  apply same_observed
  refine (same_await same_perform).bind_eq fun skip => ?_
  cases skip with
  | true => exact Routine.alike_pure rfl
  | false =>
    refine (same_await same_perform).bind_eq fun job => same_producerSpan (same_span ?_)
    exact same_trace.bind_eq fun _ => Routine.alike_pure rfl

theorem same_prepareMany {data : List (Option Json)} :
    Same (prepareMany runtime name data options : Code σ PreparedJob)
      (prepareMany runtime name data options) := by
  apply same_observed
  refine (same_await same_perform).bind_eq fun skip => ?_
  cases skip with
  | true => exact Routine.alike_pure rfl
  | false =>
    refine (same_await same_perform).bind_eq fun jobs => ?_
    dsimp only
    split
    · exact Routine.alike_pure rfl
    · refine same_producerSpan (same_span ?_)
      exact same_traceAll.bind_eq fun _ => Routine.alike_pure rfl

private theorem same_enqueueInTransaction {prepared : PreparedJob} {required : Bool} :
    Same (enqueueInTransaction prepared required : Code σ (List JobId))
      (enqueueInTransaction prepared required) := by
  unfold enqueueInTransaction
  split
  · exact Routine.alike_throw
  split
  · exact Routine.alike_pure rfl
  · refine (same_await same_perform).bind_eq fun rows => ?_
    dsimp only
    split
    · exact Routine.alike_throw
    · exact Routine.alike_pure rfl

theorem same_enqueueOneInTransaction {data : Option Json} {mode : Option JobKeyMode}
    {required : Bool} :
    Same (enqueueOneInTransaction runtime name data options mode required : Code σ (Option JobId))
      (enqueueOneInTransaction runtime name data options mode required) := by
  refine same_prepareOne.bind_eq fun prepared => ?_
  exact same_enqueueInTransaction.bind_eq fun _ => Routine.alike_pure rfl

/-! ## The context -/

theorem same_contextCreateJob {data : Option Json} :
    Same (contextCreateJob runtime name data options : Code σ (Option JobId))
      (contextCreateJob runtime name data options) :=
  (same_await same_perform).bind_eq fun _ => same_enqueueOne

theorem same_contextCreateJobs {data : List (Option Json)} :
    Same (contextCreateJobs runtime name data options : Code σ (List (Option JobId)))
      (contextCreateJobs runtime name data options) :=
  (same_await same_perform).bind_eq fun _ => same_enqueueMany

theorem same_progressSet {value : Json} :
    Same (progressSet value : Code σ Unit) (progressSet value) :=
  (same_await same_perform).bind_eq fun _ => same_await same_perform

theorem same_progressFlush : Same (progressFlush : Code σ Unit) progressFlush :=
  (same_await same_perform).bind_eq fun _ => same_await same_perform

private theorem same_runEnding {x y : Code σ α} (h : Same x y) :
    Same (runEnding x) (runEnding y) := by
  have hleave : Same (perform .leaveEndings : Code σ Unit) (perform .leaveEndings) := same_perform
  exact same_perform.bind_eq fun _ => h.tryFinally hleave

private theorem same_continueInEnding {runAt : Option Time} {traceparent : Option String} :
    Same (continueInEnding runtime runAt traceparent : Code σ JobId)
      (continueInEnding runtime runAt traceparent) := by
  refine same_perform.bind_eq fun ending => ?_
  dsimp only
  split
  · exact Routine.alike_throw
  · refine (same_guarded (same_await same_perform)).bind_eq fun _ => ?_
    refine same_perform.bind_eq fun progress => (same_await same_perform).bind_eq fun id => ?_
    exact same_perform.bind_eq fun _ => Routine.alike_pure rfl

theorem same_contextContinue {runAt : Except Thrown (Option Time)} :
    Same (contextContinue runtime runAt : Code σ Unit) (contextContinue runtime runAt) := by
  refine (same_await same_perform).bind_eq fun _ => (same_await same_perform).bind_eq fun _ => ?_
  refine Routine.alike_ofExcept.bind_eq fun runAt => same_perform.bind_eq fun traceparent => ?_
  refine (same_runEnding same_continueInEnding).bind_eq fun id => ?_
  exact same_span Routine.alike_throw

private theorem same_beginStep {id : String} : Same (beginStep id : Code σ Unit) (beginStep id) := by
  refine (same_await same_perform).bind_eq fun _ => ?_
  split
  · exact Routine.alike_throw
  · exact Routine.alike_pure rfl

private theorem unseen_stepEvent {event id : String} :
    (stepEvent event id : Code σ Unit).Unseen observerCalls :=
  (unseen_span _).watches.guarded fun _ => Routine.unseen_pure

private theorem same_stepEvent {event id : String} {f g : Code σ α} (h : Same f g) :
    Same (stepEvent event id >>= fun _ => f) (stepEvent event id >>= fun _ => g) :=
  unseen_stepEvent.bind_bind unseen_stepEvent fun _ _ => h

theorem same_stepRun {id : String} :
    Same (stepRun id : Code σ (Option Json)) (stepRun id) := by
  refine same_beginStep.bind_eq fun _ => same_perform.bind_eq fun cached => ?_
  cases cached with
  | some cached => exact same_stepEvent (same_await same_perform)
  | none => exact (same_await same_perform).bind_eq fun _ => same_await same_perform

theorem same_stepWork {id : String} {codec : Bool} :
    Same (stepWork id codec : Code σ (Option Json)) (stepWork id codec) := by
  refine Routine.Alike.tryCatch ?_ fun e => same_stepEvent Routine.alike_throw
  refine (same_await same_perform).bind_eq fun output => ?_
  have hstore : Same
      (await (perform (.storeStep id output)) >>= fun _ =>
        stepEvent "step.completed" id >>= fun _ => pure output : Code σ (Option Json))
      (await (perform (.storeStep id output)) >>= fun _ =>
        stepEvent "step.completed" id >>= fun _ => pure output) :=
    (same_await same_perform).bind_eq fun _ => same_stepEvent (Routine.alike_pure rfl)
  cases codec with
  | true => exact (same_await same_perform).bind_eq fun _ => hstore
  | false => exact hstore

private theorem same_prepare {wait : WaitArgs} :
    Same (wait.prepare runtime : Code σ PreparedJob) (wait.prepare runtime) := by
  unfold WaitArgs.prepare
  split
  · exact same_prepareMany
  · exact same_prepareOne

private theorem same_findOrCreateGroup {wait : WaitArgs} :
    Same (findOrCreateGroup wait runtime : Code σ FoundGroup) (findOrCreateGroup wait runtime) := by
  refine (same_await same_perform).bind_eq fun found => ?_
  cases found with
  | some group => exact Routine.alike_pure rfl
  | none =>
    refine same_prepare.bind_eq fun prepared => ?_
    dsimp only
    split
    · exact Routine.alike_throw
    · exact same_await same_perform

private theorem same_enterWaitCode {wait : WaitArgs} {suspended : Bool} :
    Same (enterWaitCode wait runtime suspended : Code σ Entered)
      (enterWaitCode wait runtime suspended) := by
  refine (same_await same_perform).bind_eq fun _ => Routine.Alike.tryCatch ?_ fun e => ?_
  · exact same_findOrCreateGroup.bind_eq fun _ => same_await same_perform
  · exact same_perform.bind_eq fun _ => Routine.alike_throw

private theorem same_waitInEnding {wait : WaitArgs} :
    Same (waitInEnding wait runtime : Code σ WaitCheckpoint) (waitInEnding wait runtime) := by
  refine (same_await same_perform).bind_eq fun _ => same_perform.bind_eq fun ended => ?_
  have hended : Same (assertWaitable ended : Code σ Bool) (assertWaitable ended) := by
    unfold assertWaitable
    split
    · exact Routine.alike_throw
    · exact Routine.alike_pure rfl
    · exact Routine.alike_pure rfl
  refine hended.bind_eq fun suspended => same_enterWaitCode.bind_eq fun entered => ?_
  cases entered with
  | suspended => exact same_perform.bind_eq fun _ => Routine.alike_throw
  | finished checkpoint => exact Routine.alike_pure rfl

theorem same_waitWork {wait : WaitArgs} :
    Same (waitWork wait runtime : Code σ WaitCheckpoint) (waitWork wait runtime) := by
  refine (same_await same_perform).bind_eq fun _ => ?_
  refine (same_runEnding same_waitInEnding).bind_eq fun checkpoint => ?_
  exact same_perform.bind_eq fun _ => same_stepEvent (Routine.alike_pure rfl)

theorem same_contextWait {wait : WaitArgs} :
    Same (contextWait wait : Code σ Json) (contextWait wait) := by
  refine same_beginStep.bind_eq fun _ => ?_
  dsimp only
  split
  · exact Routine.alike_throw
  · refine same_perform.bind_eq fun cached => ?_
    cases cached with
    | some cached => exact same_stepEvent (same_await same_perform)
    | none =>
      dsimp only
      split
      · exact Routine.alike_pure rfl
      · exact (same_await same_perform).bind_eq fun _ => same_await same_perform

theorem same_processExecutor {payload : Option Json} :
    Same (processExecutor payload : Code σ (Option Json)) (processExecutor payload) := by
  refine (same_await same_perform).bind_eq fun validated => ?_
  exact (same_await same_perform).bind_eq fun output => same_await same_perform

/-- Two loggers log the same, which nobody sees. -/
private theorem same_log {logger logger' : Logger} {level : LogLevel} {message : String}
    {attributes : Attributes} {f g : Code σ α} (h : Same f g) :
    Same (logger.log level message attributes >>= fun _ => f)
      (logger'.log level message attributes >>= fun _ => g) :=
  (unseen_log logger level message attributes).bind_bind (unseen_log logger' level message attributes)
    fun _ _ => h

theorem same_initExecutor {logger logger' : Logger} {queue : String} :
    Same (initExecutor runtime logger queue : Code σ (Option Json))
      (initExecutor runtime logger' queue) := by
  refine (same_await same_perform).bind_eq fun items => same_log (same_span ?_)
  dsimp only
  split
  · exact same_contextCreateJobs.bind_eq fun ids => same_log (Routine.alike_pure rfl)
  · exact Routine.alike_pure rfl

/-! ## executeTask -/

section
variable {o : ExecuteTaskOptions} {logger logger' : Logger} {startTime : Time} {error : Thrown}

private theorem same_now : Same (currentTime : Code σ Time) currentTime := same_perform

theorem same_loggers {level : LogLevel} {message : String} {attributes : Attributes} :
    Same (logger.log level message attributes : Code σ Unit) (logger'.log level message attributes) :=
  (unseen_log logger level message attributes).alike (unseen_log logger' level message attributes)

/-- A text is read and logged under both loggers, or there is none. -/
private theorem same_logText {level : LogLevel} {message : String} {attributes : String → Attributes} :
    Same (error.withText fun text => logger.log level message (attributes text) : Code σ Unit)
      (error.withText fun text => logger'.log level message (attributes text)) := by
  unfold Thrown.withText
  split
  · exact Routine.alike_throw
  · exact same_loggers

private theorem same_assertPayloadEnvelope {value : Json} :
    Same (assertPayloadEnvelope value : Code σ Unit) (assertPayloadEnvelope value) := by
  unfold assertPayloadEnvelope
  split
  · exact Routine.alike_pure rfl
  · exact Routine.alike_throw

private theorem same_settle {settled : ChildReport} {row : RowMode} :
    Same (settle o settled row) (settle o settled row) := by
  unfold settle
  split
  · exact same_await same_perform
  · exact Routine.alike_pure rfl

private theorem same_runHandler : Same (runHandler o logger) (runHandler o logger') := by
  refine (same_await same_perform).tryCatch fun error => same_perform.bind_eq fun ending => ?_
  cases ending with
  | none => exact Routine.alike_throw
  | some _ =>
    dsimp only
    split
    · exact same_logText.bind_eq fun _ => Routine.alike_pure rfl
    · exact Routine.alike_pure rfl

private theorem same_suspendRun {waitId : String} : Same (suspendRun waitId) (suspendRun waitId) := by
  refine Routine.alike_modify.bind_eq fun _ => ?_
  refine (same_guarded (same_await same_perform)).bind_eq fun _ => ?_
  exact same_span (same_span (Routine.alike_pure rfl))

private theorem same_settleCompletion {output : Option Json} :
    Same (settleCompletion o output) (settleCompletion o output) := by
  refine same_settle.bind_eq fun settled => ?_
  cases settled with
  | true => exact Routine.alike_pure rfl
  | false => exact Routine.alike_throw

private theorem same_storeCompletion :
    Same (storeCompletion o startTime) (storeCompletion o startTime) := by
  refine same_now.bind_eq fun now => same_span (same_span ?_)
  exact same_now.bind_eq fun _ => same_perform (e := .completedJob _)

private theorem same_completeRun {continued : Bool} {output : Option Json} :
    Same (completeRun o startTime continued output) (completeRun o startTime continued output) := by
  have hstore : Same (storeCompletion o startTime >>= fun _ => pure none : Task (Option String))
      (storeCompletion o startTime >>= fun _ => pure none) :=
    same_storeCompletion.bind_eq fun _ => Routine.alike_pure rfl
  refine (same_guarded (same_await same_perform)).bind_eq fun _ => ?_
  cases continued with
  | true => exact hstore
  | false => exact same_settleCompletion.bind_eq fun _ => hstore

private theorem same_runAttempt :
    Same (runAttempt o logger startTime) (runAttempt o logger' startTime) := by
  refine same_assertPayloadEnvelope.bind_eq fun _ => same_runHandler.bind_eq fun output => ?_
  refine same_perform.bind_eq fun ending => ?_
  cases ending with
  | none => exact same_completeRun
  | some ending =>
    cases ending with
    | waiting waitId => exact same_suspendRun
    | continued jobId => exact Routine.alike_modify.bind_eq fun _ => same_completeRun

private theorem same_closeFailedProgress :
    Same (closeFailedProgress o logger) (closeFailedProgress o logger') :=
  (same_await same_perform).tryCatch fun _ => same_logText

private theorem same_reportPermanentFailure {reported : Thrown} {message : String} {durationMs : Time} :
    Same (reportPermanentFailure o reported message durationMs)
      (reportPermanentFailure o reported message durationMs) := by
  have hhook : ∀ event, (observe (awaitObserver (.onPermanentFailure event)) : Task Unit).Unseen
      observerCalls := fun event =>
    coversGuards_observerCalls.observe (watches_awaitObserver trivial)
  refine (hhook _).bind_bind (hhook _) fun _ _ => ?_
  exact same_now.bind_eq fun _ => same_perform (e := .completedJob _)

private theorem same_retryLater : Same (retryLater error) (retryLater error) := by
  unfold retryLater
  split
  · exact (same_await same_perform).bind_eq fun _ => Routine.alike_modify
  · exact Routine.alike_pure rfl

private theorem same_recordFailure {failure : ChildReport} {row : RowMode} :
    Same (recordFailure o logger failure row) (recordFailure o logger' failure row) := by
  refine Routine.Alike.tryCatch ?_ fun _ => same_logText
  exact same_settle.bind_eq fun _ => Routine.alike_pure rfl

private theorem same_retainJob {failure : ChildReport} :
    Same (retainJob o failure) (retainJob o failure) := by
  refine same_settle.bind_eq fun settled => ?_
  cases settled with
  | true => exact Routine.alike_pure rfl
  | false => exact Routine.alike_throw

private theorem same_settleFailure {failure : ChildReport} {permanent : Bool} :
    Same (settleFailure o logger error failure permanent)
      (settleFailure o logger' error failure permanent) := by
  have hend : Same
      (if error.isNonRetriable then pure none else Routine.throw error : Task (Option String))
      (if error.isNonRetriable then pure none else Routine.throw error) := by
    split
    · exact Routine.alike_pure rfl
    · exact Routine.alike_throw
  have hretain : Same
      (retainJob o failure >>= fun _ => Routine.throw error : Task (Option String))
      (retainJob o failure >>= fun _ => Routine.throw error) :=
    same_retainJob.bind_eq fun _ => Routine.alike_throw
  unfold settleFailure
  cases permanent with
  | true =>
    simp only [Bool.not_true, Bool.false_eq_true, if_false, if_true]
    split
    · exact hretain
    · exact same_recordFailure.bind_eq fun _ => hend
  | false =>
    refine same_retryLater.bind_eq fun _ => ?_
    dsimp only
    split
    · exact hretain
    · exact hend

private theorem same_failAttempt :
    Same (failAttempt o logger startTime error) (failAttempt o logger' startTime error) := by
  refine Routine.alike_modify.bind_eq fun _ => same_closeFailedProgress.bind_eq fun _ => ?_
  refine same_now.bind_eq fun now => ?_
  dsimp only
  split
  · exact Routine.alike_throw
  · refine Routine.alike_modify.bind_eq fun _ => same_span (same_span (same_span ?_))
    refine Routine.alike_modify.bind_eq fun _ => ?_
    split
    · exact same_reportPermanentFailure.bind_eq fun _ => same_settleFailure
    · exact same_settleFailure

private theorem same_finishAttempt :
    Same (finishAttempt o logger startTime) (finishAttempt o logger' startTime) := by
  refine same_perform.bind_eq fun _ => same_now.bind_eq fun now => ?_
  refine Routine.alike_get.bind_eq fun locals => ?_
  refine unseen_onJobFinished.bind_bind unseen_onJobFinished fun _ _ => ?_
  split
  · exact Routine.alike_throw
  · exact same_loggers

private theorem hidden_linkProducer : (linkProducer o).Unseen observerCalls := by
  unfold linkProducer
  split
  · exact Routine.unseen_pure
  · exact (unseen_span _).bind fun _ => unseen_span _

private theorem same_taskBody : Same (taskBody o) (taskBody o) := by
  refine same_now.bind_eq fun startTime => same_span ?_
  refine hidden_linkProducer.bind_bind hidden_linkProducer fun _ _ => ?_
  have hlogger := coversGuards_observerCalls.jobLogger (σ := Locals)
    ⟨o.queueName, o.helpers.id, o.helpers.attempts⟩
  refine hlogger.bind_bind hlogger fun logger logger' => ?_
  exact (same_runAttempt.tryCatch fun _ => same_failAttempt).tryFinally same_finishAttempt

theorem same_executeTask : Same (executeTask o) (executeTask o) := by
  refine same_perform.bind_eq fun _ => (same_withActiveSpan same_taskBody).bind_eq fun suspended => ?_
  cases suspended with
  | some waitId => exact Routine.alike_throw
  | none => exact Routine.alike_pure rfl

theorem same_logHandlerSettled {late : Option Thrown} :
    Same (logHandlerSettled o logger startTime late : Code σ Unit)
      (logHandlerSettled o logger' startTime late) := by
  refine same_now.bind_eq fun now => ?_
  cases late with
  | none => exact same_loggers
  | some error =>
    dsimp only
    split
    · exact same_perform (e := .unhandledRejection _)
    · split
      · exact same_loggers
      · exact same_perform (e := .unhandledRejection _)

end

end BetterGraphileWorker
