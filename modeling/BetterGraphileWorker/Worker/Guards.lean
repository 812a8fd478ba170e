-- SUMMARY: Guarded observer calls are unseen: loggers, span methods and instruments cannot make the code around them throw.
import BetterGraphileWorker.Library.Observation
import BetterGraphileWorker.Worker.Observers

/-!
# Guards

What holds of the routines around observers for every choice of hidden requests that
covers the calls they make. Rejected promises that nobody handles have to be covered too.
-/

namespace BetterGraphileWorker

/-- The hooks, whose calls are awaited. -/
def ObserverCall.isHook : ObserverCall → Bool
  | .onJobFinished _ | .onPermanentFailure _ | .onEnqueueFail _ => true
  | _ => false

/-- The guards drop what the observer returns, a rejected promise included. -/
def ObserverCall.dropsRejection : ObserverCall → Bool
  | .metric _ | .createLogger _ => true
  | _ => false

/-- Everything that loggers, spans and instruments ask for is hidden. -/
structure CoversGuards (H : Hidden Request Request.Reply) : Prop where
  calls : ∀ call : ObserverCall, call.isHook = false → H.requests (.observer call)
  rejections : ∀ (call : ObserverCall) (e : Thrown), call.dropsRejection = true →
    H.answers (.observer call) (.rejected e) → H.requests (.effect (.unhandledRejection e))

variable {H : Hidden Request Request.Reply} {σ α : Type}

theorem watches_await {x : Code σ (Except Thrown α)} (h : x.Unseen H) : (await x).Watches H :=
  h.watches.bind fun _ => Routine.watches_ofExcept

theorem unseen_perform {e : Effect} (h : H.requests (.effect e)) :
    (perform e : Code σ e.Reply).Unseen H :=
  Routine.unseen_call h

/-- A call whose rejections go to code that returns, and whose exceptions are thrown. -/
theorem watches_callObserver {call : ObserverCall} (h : H.requests (.observer call))
    {f : Reaction → Code σ α} (hf : ∀ reaction, H.answers (.observer call) reaction →
      (f reaction).Watches H) : (callObserver call >>= f).Watches H := by
  intro s
  refine .request h fun reaction hreaction => ?_
  cases reaction with
  | threw e => exact .done rfl
  | nothing => exact hf _ hreaction s
  | value => exact hf _ hreaction s
  | rejected e => exact hf _ hreaction s

theorem watches_awaitObserver {call : ObserverCall} (h : H.requests (.observer call)) :
    (awaitObserver call : Code σ Unit).Watches H := by
  refine watches_callObserver h fun reaction _ => ?_
  cases reaction with
  | rejected e => exact Routine.watches_throw
  | _ => exact Routine.unseen_pure.watches

namespace CoversGuards

theorem report (hH : CoversGuards H) (e : Thrown) : (report e : Code σ Unit).Unseen H := by
  apply Routine.Watches.guarded
  · exact watches_callObserver (hH.calls _ rfl) fun _ _ => Routine.unseen_pure.watches
  · exact fun _ => Routine.unseen_pure

theorem observe (hH : CoversGuards H) {call : Code σ Unit} (h : call.Watches H) :
    (observe call).Unseen H :=
  h.guarded hH.report

theorem log (hH : CoversGuards H) (logger : Logger) (level : LogLevel) (message : String)
    (attributes : Attributes) : (logger.log level message attributes : Code σ Unit).Unseen H := by
  apply Routine.Watches.guarded
  · refine watches_callObserver (hH.calls _ rfl) fun reaction _ => ?_
    cases reaction with
    | rejected e => exact (hH.report e).watches
    | _ => exact Routine.unseen_pure.watches
  · exact hH.report

theorem callSpan (hH : CoversGuards H) (call : SpanCall) : (callSpan call : Code σ Unit).Unseen H := by
  apply Routine.Watches.guarded
  · exact watches_callObserver (hH.calls _ rfl) fun _ _ => Routine.unseen_pure.watches
  · exact fun _ => Routine.unseen_pure

theorem jobLogger (hH : CoversGuards H) (options : CreateLoggerOptions) :
    (jobLogger options : Code σ Logger).Unseen H := by
  apply Routine.Watches.guarded
  · refine watches_callObserver (hH.calls _ rfl) fun reaction hreaction => ?_
    cases reaction with
    | rejected e =>
      have hrejection := hH.rejections _ e rfl hreaction
      exact ((unseen_perform hrejection).bind fun _ => Routine.unseen_pure).watches
    | _ => exact Routine.unseen_pure.watches
  · exact fun e => (hH.report e).bind fun _ => Routine.unseen_pure

theorem addMetric (hH : CoversGuards H) (call : Metric) : (addMetric call : Code σ Unit).Watches H := by
  refine watches_callObserver (hH.calls _ rfl) fun reaction hreaction => ?_
  cases reaction with
  | rejected e => exact (unseen_perform (hH.rejections _ e rfl hreaction)).watches
  | _ => exact Routine.unseen_pure.watches

theorem record {fn : Code σ Unit} (h : fn.Watches H) : (record fn).Unseen H :=
  h.guarded fun _ => Routine.unseen_pure

theorem recordJobFinished (hH : CoversGuards H) (event : JobFinishedEvent) :
    (recordJobFinished event : Code σ Unit).Unseen H := by
  apply record
  refine (hH.addMetric _).bind fun _ => (hH.addMetric _).bind fun _ => ?_
  split
  · exact hH.addMetric _
  · exact Routine.unseen_pure.watches

end CoversGuards

/-- Text that can be read is passed on. -/
theorem unseen_withText {e : Thrown} {f : String → Code σ Unit} (htext : e.text.isSome)
    (hf : ∀ text, (f text).Unseen H) : (e.withText f).Unseen H := by
  obtain ⟨text, h⟩ := Option.isSome_iff_exists.mp htext
  simp only [Thrown.withText, h]
  exact hf text

theorem watches_withText {e : Thrown} {f : String → Code σ Unit} (hf : ∀ text, (f text).Watches H) :
    (e.withText f).Watches H := by
  unfold Thrown.withText
  split
  · exact Routine.watches_throw
  · exact hf _

end BetterGraphileWorker
