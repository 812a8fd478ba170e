-- SUMMARY: The guards of observers.ts, metrics.ts and otel.ts around hooks, loggers, instruments and span methods.
import BetterGraphileWorker.Worker.Requests

/-!
# Observers

Every call of an observer goes through one of these routines. Each of them returns,
whatever the observer does. A promise that a guard attaches a `catch` to is handled at
once here; the source handles it when it rejects.
-/

namespace BetterGraphileWorker

/-- The code of the library, with local variables `σ`. -/
abbrev Code (σ α : Type) := Routine Request Request.Reply σ Thrown α

/-- The options of a worker that its tasks read. -/
structure Runtime where
  jobOutcomes : Bool
  /-- `permanentFailure: 'discard'`. -/
  discard : Bool
  /-- `otel: { metrics: true }`. -/
  metrics : Bool

variable {σ α : Type}

/-! ## Requests -/

def perform (e : Effect) : Code σ e.Reply := Routine.call (Request.effect e)

/-- `Date.now()`. -/
def currentTime : Code σ Time := perform .now

/-- Go on with an answer, or throw what it throws. -/
def await (answer : Code σ (Except Thrown α)) : Code σ α := answer >>= Routine.ofExcept

/-- Call an observer without waiting for its promise. -/
def callObserver (call : ObserverCall) : Code σ Reaction := do
  match ← (Routine.call (Request.observer call) : Code σ Reaction) with
  | .threw error => Routine.throw error
  | reaction => pure reaction

/-- Call an observer and await its promise. -/
def awaitObserver (call : ObserverCall) : Code σ Unit := do
  match ← callObserver call with
  | .rejected error => Routine.throw error
  | _ => pure ()

/-! ## Texts -/

/-- `String(error)`. -/
def Thrown.text (error : Thrown) : Option String :=
  match error with
  | .value text => text
  | error => error.describe.map fun (name, message) =>
    if name.isEmpty then message else if message.isEmpty then name else name ++ ": " ++ message

/-- Use the text of a thrown value; reading it throws when it has none. -/
def Thrown.withText (error : Thrown) (f : String → Code σ Unit) : Code σ Unit :=
  match error.text with
  | none => Routine.throw .typeError
  | some text => f text

/-! ## Hooks and loggers -/

def report (error : Thrown) : Code σ Unit :=
  Routine.tryCatch (callObserver (.consoleError error) >>= fun _ => pure ()) fun _ => pure ()

def observe (call : Code σ Unit) : Code σ Unit := Routine.tryCatch call report

/-- A method of `safeLogger`. -/
def Logger.log (logger : Logger) (level : LogLevel) (message : String) (attributes : Attributes) :
    Code σ Unit :=
  Routine.tryCatch
    (do match ← callObserver (.log logger level message attributes) with
      | .rejected error => report error
      | _ => pure ())
    report

/-- A promise is no logger: its methods throw, and nobody handles its rejection. -/
def jobLogger (options : CreateLoggerOptions) : Code σ Logger :=
  Routine.tryCatch
    (do match ← callObserver (.createLogger options) with
      | .nothing => pure .console
      | .rejected error =>
        perform (.unhandledRejection error)
        pure .custom
      | _ => pure .custom)
    fun error => do
      report error
      pure .console

/-! ## Metrics -/

/-- Record on an instrument. What it returns is dropped. -/
def addMetric (call : Metric) : Code σ Unit := do
  match ← callObserver (.metric call) with
  | .rejected error => perform (.unhandledRejection error)
  | _ => pure ()

def record (fn : Code σ Unit) : Code σ Unit := Routine.tryCatch fn fun _ => pure ()

def recordJobFinished (event : JobFinishedEvent) : Code σ Unit :=
  record do
    addMetric (.jobs event.queue event.status)
    addMetric (.duration event.durationMs event.queue event.status)
    if event.permanentlyFailed then addMetric (.permanentlyFailed event.queue)

/-- `onJobFinished`, wrapped by `withQueueMetrics` when metrics are on. -/
def onJobFinished (metrics : Bool) (event : JobFinishedEvent) : Code σ Unit := do
  if metrics then recordJobFinished event
  awaitObserver (.onJobFinished event)

/-- `onEnqueueFail`, wrapped by `withQueueMetrics` when metrics are on. -/
def onEnqueueFail (metrics : Bool) (event : EnqueueFailEvent) : Code σ Unit := do
  if metrics then record (addMetric (.enqueueFailed event.queue))
  awaitObserver (.onEnqueueFail event)

/-! ## Spans -/

/-- A method of `wrapOtelSpan`; a rejected promise is caught and dropped. -/
def callSpan (call : SpanCall) : Code σ Unit :=
  Routine.tryCatch (callObserver (.span call) >>= fun _ => pure ()) fun _ => pure ()

/--
Run `fn` in a span. The adapter runs its callback once and returns the callback's
promise, as `startActiveSpan` is documented to do; `ActiveSpan` has any adapter.
-/
def withActiveSpan (fn : Code σ α) : Code σ α := Routine.tryFinally fn (callSpan .end)

/-- `otelStatusCodes`. -/
def statusOk : ℕ := 1
def statusError : ℕ := 2

end BetterGraphileWorker
