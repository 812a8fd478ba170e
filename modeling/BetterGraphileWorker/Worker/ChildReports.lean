-- SUMMARY: What the workers of a wait's children report, from executeTask for a child to the checkpoint of all reports.
import BetterGraphileWorker.Data.Jsonb
import BetterGraphileWorker.Database.Effects
import BetterGraphileWorker.Worker.ChildQueue
import BetterGraphileWorker.Worker.TaskWorld

/-!
# Child reports

A child with one attempt runs once: `executeTask` writes one report of how its run ended,
or none if what it threw has no text that `jsonb` takes. Its payload went through `jsonb`
when the wait marked it, and so do the reports. The wait's checkpoint holds the reports of
all children in input order, whatever the order they settled in.
-/

namespace BetterGraphileWorker

/-! ## The task of a child -/

/-- What `enterWait` makes of the payload of a child; it throws where `jsonb` refuses the cast. -/
def markedPayload (stored : Option Json) (traceparent : Option String) : Option Json :=
  let envelope := Payload.markWaited (Payload.injectTraceContext stored traceparent)
  if envelope.casts then some envelope.readBack else none

/-- The task of a wait's child that was enqueued with a payload; its claim spent the last attempt. -/
structure ExecuteTaskOptions.RunsChild (o : ExecuteTaskOptions) (stored : Option Json) : Prop where
  payload : ∃ traceparent, markedPayload stored traceparent = some o.payload
  lastAttempt : o.lastAttempt = true

/-- PostgreSQL takes the error's text and the report of the statement. -/
def Settle.casts (settle : Settle) : Bool :=
  (match settle.outcome with
    | some (.failed error) => Json.nulFree error
    | _ => true) && settle.report.all (·.toJson.casts)

/-- The error of a statement that PostgreSQL refuses. -/
def databaseError (message : String) : Thrown := .error "error" message

/--
How the task of a child is answered whose run ends with `outcome`, and what that adds to
the reports it wrote. The run neither continued nor waited, and the statements that
PostgreSQL accepts commit.
-/
def childServes (outcome : Except Thrown (Option Json)) :
    (r : Request) → List ChildReport → r.Reply → List ChildReport → Prop
  | .effect .runExecutor, written, answer, written' => answer = outcome ∧ written' = written
  | .effect .endingsSettled, written, answer, written' => answer = none ∧ written' = written
  | .effect (.settleLockedJob settle), written, answer, written' =>
      if settle.casts then answer = .ok true ∧ written' = written ++ settle.report.toList
      else (∃ message, Json.nulFree message = true ∧ answer = .error (databaseError message)) ∧
        written' = written
  | .effect (.closeProgress _), written, answer, written' =>
      (∀ error : Thrown, answer = .error error → error.text.isSome) ∧ written' = written
  | _, written, _, written' => written' = written

/-- The report of a failed run, unless what it threw has no text or one that `jsonb` refuses. -/
def failureReport (error : Thrown) : Option ChildReport :=
  (error.reported.describe.map fun described => .failed described.1 described.2).filter (·.toJson.casts)

/-- The reports of a run; a completion that `jsonb` refuses fails instead. -/
def WorkerReports (outcome : Except Thrown (Option Json)) (written : List ChildReport) : Prop :=
  match outcome with
  | .ok output =>
    if (ChildReport.ok output).toJson.casts then written = [.ok output]
    else ∃ message, Json.nulFree message = true ∧ written = [.failed "error" message]
  | .error error => written = (failureReport error).toList

theorem casts_failed {name message : String} : (ChildReport.failed name message).toJson.casts =
    (Json.nulFree name && Json.nulFree message) := by
  have hkeys : Json.nulFree "ok" = true ∧ Json.nulFree "error" = true ∧ Json.nulFree "name" = true ∧
      Json.nulFree "message" = true := by decide
  simp [ChildReport.toJson, Json.casts, Json.castsFields, hkeys]

theorem failureReport_databaseError {message : String} (h : Json.nulFree message = true) :
    failureReport (databaseError message) = some (.failed "error" message) := by
  have hname : Json.nulFree "error" = true := by decide
  simp [failureReport, databaseError, Thrown.reported, Thrown.describe, Message.read, casts_failed, h,
    hname]

variable {o : ExecuteTaskOptions} {stored : Option Json} {outcome : Except Thrown (Option Json)}

namespace ExecuteTaskOptions.RunsChild

private theorem payload_eq (h : o.RunsChild stored) : ∃ traceparent,
    o.payload = (Payload.markWaited (Payload.injectTraceContext stored traceparent)).readBack := by
  obtain ⟨traceparent, hpayload⟩ := h.payload
  simp only [markedPayload] at hpayload
  split at hpayload
  · exact ⟨traceparent, (Option.some.inj hpayload).symm⟩
  · cases hpayload

theorem isPayloadEnvelope (h : o.RunsChild stored) : Payload.isPayloadEnvelope o.payload = true := by
  obtain ⟨traceparent, hpayload⟩ := h.payload_eq
  rw [hpayload, Payload.isPayloadEnvelope_readBack]
  cases stored <;> cases traceparent <;> rfl

theorem waited (h : o.RunsChild stored) : o.waited = true := by
  obtain ⟨traceparent, hpayload⟩ := h.payload_eq
  rw [ExecuteTaskOptions.waited, h.isPayloadEnvelope, hpayload, Payload.waited_readBack]
  cases stored <;> cases traceparent <;> rfl

/-- The child's task reads the payload that was enqueued as `jsonb` kept it. -/
theorem cleanPayload (h : o.RunsChild stored) : o.cleanPayload = stored.map Json.readBack := by
  obtain ⟨traceparent, hpayload⟩ := h.payload_eq
  have hstored : Payload.cleanPayload (Payload.markWaited
      (Payload.injectTraceContext stored traceparent)) = stored := by
    cases stored <;> cases traceparent <;> rfl
  rw [ExecuteTaskOptions.cleanPayload, if_pos h.isPayloadEnvelope, hpayload,
    Payload.cleanPayload_readBack, hstored]

end ExecuteTaskOptions.RunsChild

/-! ## Code that reports nothing -/

/-- Everything but the run, its ending and the statements that settle it. -/
def Request.unreported : Request → Bool
  | .effect .runExecutor | .effect .endingsSettled | .effect (.settleLockedJob _) => false
  | _ => true

def unreported : Hidden Request Request.Reply where
  requests r := r.unreported = true
  answers
    | .effect (.closeProgress _), answer =>
        ∀ error : Thrown, answer = Except.error error → error.text.isSome
    | _, _ => True

theorem coversGuards_unreported : CoversGuards unreported where
  calls _ _ := rfl
  rejections _ _ _ _ := rfl

theorem kept_of_childServes (r : Request) (written : List ChildReport) (answer : r.Reply)
    (written' : List ChildReport) (hunreported : unreported.requests r)
    (hserves : childServes outcome r written answer written') :
    unreported.answers r answer ∧ written' = written := by
  cases r with
  | observer call => exact ⟨trivial, hserves⟩
  | effect e =>
    cases e <;> first
      | exact ⟨trivial, hserves⟩
      | exact hserves
      | cases hunreported

section
variable {σ α : Type} {x : Code σ α} {s : σ} {written : List ChildReport}
  {post : Except Thrown α → σ → List ChildReport → Prop}

theorem wp_of_unreported (h : x.Unseen unreported) (hpost : ∀ a, post (.ok a) s written) :
    x.wp (childServes outcome) post s written := by
  apply h.wp (P := fun w w' => w' = w) (fun _ => rfl) (fun _ _ _ h h' => h'.trans h)
    kept_of_childServes
  intro a _ hkept
  subst hkept
  exact hpost a

theorem wp_unreported {e : Effect} {post : Except Thrown e.Reply → σ → List ChildReport → Prop}
    (h : (Request.effect e).unreported = true) (hpost : ∀ answer, post (.ok answer) s written) :
    (perform e).wp (childServes outcome) post s written :=
  wp_of_unreported (unseen_perform h) hpost

private theorem wp_answered {e : Effect} {post : Except Thrown e.Reply → σ → List ChildReport → Prop}
    (hpost : ∀ answer written', childServes outcome (.effect e) written answer written' →
      post (.ok answer) s written') :
    (perform e).wp (childServes outcome) post s written :=
  hpost

end

/-! ## The try block -/

section
variable {logger : Logger} {startTime : Time} {s : Locals} {written : List ChildReport}

private theorem casts_settlement {settled : ChildReport} {row : RowMode} (hwaited : o.waited = true) :
    (o.settlement settled row).casts = settled.toJson.casts := by
  cases settled with
  | ok output => cases ho : o.runtime.jobOutcomes <;>
      simp [Settle.casts, ExecuteTaskOptions.settlement, settledOutcome, hwaited, ho]
  | failed name message => cases ho : o.runtime.jobOutcomes <;>
      cases hmessage : Json.nulFree message <;>
      simp [Settle.casts, ExecuteTaskOptions.settlement, settledOutcome, hwaited, ho, casts_failed,
        hmessage]

/-- The report is written, or PostgreSQL refuses it. -/
private theorem wp_settle_child {settled : ChildReport} {row : RowMode}
    {post : Except Thrown Bool → Locals → List ChildReport → Prop} (hwaited : o.waited = true)
    (hpost : settled.toJson.casts = true → post (.ok true) s (written ++ [settled]))
    (hrefused : settled.toJson.casts = false → ∀ message, Json.nulFree message = true →
      post (.error (databaseError message)) s written) :
    (settle o settled row).wp (childServes outcome) post s written := by
  have hsettles : o.settles row = true := by simp [ExecuteTaskOptions.settles, hwaited]
  simp only [settle, hsettles, if_true, await, Routine.wp_bind]
  apply wp_answered
  intro answer written' hserves
  simp only [childServes, casts_settlement hwaited] at hserves
  split at hserves
  · rename_i hcasts
    obtain ⟨rfl, rfl⟩ := hserves
    have hreport : (o.settlement settled row).report = some settled := by
      simp [ExecuteTaskOptions.settlement, hwaited]
    rw [hreport]
    exact hpost hcasts
  · rename_i hcasts
    obtain ⟨⟨message, hnul, rfl⟩, rfl⟩ := hserves
    exact hrefused (Bool.eq_false_iff.mpr hcasts) message hnul

private theorem wp_settledEnding_child
    {post : Except Thrown (Option Ending) → Locals → List ChildReport → Prop}
    (hpost : post (.ok none) s written) :
    settledEnding.wp (childServes outcome) post s written := by
  apply wp_answered
  intro answer written' hserves
  obtain ⟨rfl, rfl⟩ := hserves
  exact hpost

private theorem wp_runHandler_child
    {post : Except Thrown (Option Json) → Locals → List ChildReport → Prop}
    (hpost : post outcome s written) :
    (runHandler o logger).wp (childServes outcome) post s written := by
  simp only [runHandler, await, Routine.wp_tryCatch, Routine.wp_bind]
  apply wp_answered
  intro answer written' hserves
  obtain ⟨rfl, rfl⟩ := hserves
  cases answer with
  | ok output => exact hpost
  | error e =>
    simp only [Routine.wp_ofExcept]
    apply wp_settledEnding_child
    exact hpost

private theorem unseen_closed {persist : Bool} :
    (Routine.tryCatch (await (perform (.closeProgress persist))) fun _ => pure () :
      Task Unit).Unseen unreported :=
  (watches_await (unseen_perform rfl)).guarded fun _ => Routine.unseen_pure

private theorem unseen_stored : (storeCompletion o startTime).Unseen unreported := by
  refine (unseen_perform rfl).bind fun now => ?_
  refine (coversGuards_unreported.callSpan _).bind fun _ => ?_
  refine (coversGuards_unreported.callSpan _).bind fun _ => ?_
  exact (unseen_perform rfl).bind fun _ => unseen_perform rfl

/-- A run that returns reports its output, or throws what PostgreSQL says of it. -/
private theorem wp_runAttempt_child {stored : Option Json}
    {post : Except Thrown (Option String) → Locals → List ChildReport → Prop}
    (hchild : o.RunsChild stored)
    (hok : ∀ output, outcome = .ok output → (ChildReport.ok output).toJson.casts = true →
      post (.ok none) s (written ++ [.ok output]))
    (hrefused : ∀ output message, outcome = .ok output → (ChildReport.ok output).toJson.casts = false →
      Json.nulFree message = true → post (.error (databaseError message)) s written)
    (herror : ∀ e, outcome = .error e → post (.error e) s written) :
    (runAttempt o logger startTime).wp (childServes outcome) post s written := by
  simp only [runAttempt, assertPayloadEnvelope, hchild.isPayloadEnvelope, if_true, Routine.wp_bind,
    Routine.wp_pure]
  apply wp_runHandler_child
  cases houtcome : outcome with
  | error e => exact herror e houtcome
  | ok output =>
    dsimp only
    apply wp_settledEnding_child
    simp only [completeRun, Bool.not_false, if_true, Routine.wp_bind]
    apply wp_of_unreported unseen_closed
    intro _
    simp only [settleCompletion, Routine.wp_bind]
    apply wp_settle_child hchild.waited
    · intro hcasts
      simp only [Bool.not_true, Bool.false_eq_true, if_false, Routine.wp_pure]
      apply wp_of_unreported unseen_stored
      intro _
      exact hok output houtcome hcasts
    · intro hcasts message hnul
      exact hrefused output message houtcome hcasts hnul

/-! ## The catch block -/

private theorem unseen_closedFailed : (closeFailedProgress o logger).Unseen unreported := by
  intro s
  refine .request rfl fun answer htext => ?_
  cases answer with
  | ok _ => exact .done ⟨rfl, (), rfl⟩
  | error e =>
    have hsome : ∀ error : Thrown, Except.error e = Except.error error → error.text.isSome := htext
    apply unseen_withText (hsome e rfl)
    intro text
    exact coversGuards_unreported.log logger _ _ _

private theorem unseen_reportPermanentFailure {reported : Thrown} {message : String}
    {durationMs : Time} :
    (reportPermanentFailure o reported message durationMs).Unseen unreported := by
  refine (coversGuards_unreported.observe (watches_awaitObserver rfl)).bind fun _ => ?_
  exact (unseen_perform rfl).bind fun _ => unseen_perform rfl

/-- A permanent failure is reported if PostgreSQL takes it, whatever becomes of the row. -/
private theorem wp_settleFailure_child {error : Thrown} {failure : ChildReport}
    {post : Except Thrown (Option String) → Locals → List ChildReport → Prop}
    (hwaited : o.waited = true)
    (hpost : ∀ r, post r s (written ++ ((some failure).filter (·.toJson.casts)).toList)) :
    (settleFailure o logger error failure true).wp (childServes outcome) post s written := by
  have hkept : failure.toJson.casts = true →
      written ++ ((some failure).filter (·.toJson.casts)).toList = written ++ [failure] := by
    intro h
    simp [Option.filter, h]
  have hlost : failure.toJson.casts = false →
      written ++ ((some failure).filter (·.toJson.casts)).toList = written := by
    intro h
    simp [Option.filter, h]
  have hrecord : ∀ {row} {post' : Except Thrown Unit → Locals → List ChildReport → Prop},
      post' (.ok ()) s (written ++ ((some failure).filter (·.toJson.casts)).toList) →
      (recordFailure o logger failure row).wp (childServes outcome) post' s written := by
    intro row post' hpost'
    simp only [recordFailure, Routine.wp_tryCatch, Routine.wp_bind]
    apply wp_settle_child hwaited
    · intro hcasts
      rwa [hkept hcasts] at hpost'
    · intro hcasts message _
      rw [hlost hcasts] at hpost'
      apply wp_of_unreported (unseen_withText rfl fun text => coversGuards_unreported.log logger _ _ _)
      intro _
      exact hpost'
  simp only [settleFailure, Bool.not_true, Bool.false_eq_true, if_false, if_true]
  split
  -- A retained job is exhausted in the statement that reports, and fails if that fails.
  · simp only [retainJob, Routine.wp_bind]
    apply wp_settle_child hwaited
    · intro hcasts
      have hthrown := hpost (.error error)
      rwa [hkept hcasts] at hthrown
    · intro hcasts message _
      have hthrown := hpost (.error (databaseError message))
      rwa [hlost hcasts] at hthrown
  · rw [Routine.wp_bind]
    apply hrecord
    dsimp only
    split <;> exact hpost _

/-- A run that throws on its last attempt reports what went wrong, if that has a text. -/
private theorem wp_failAttempt_child {error : Thrown}
    {post : Except Thrown (Option String) → Locals → List ChildReport → Prop}
    (hwaited : o.waited = true) (hlast : o.lastAttempt = true)
    (hpost : ∀ r s', post r s' (written ++ (failureReport error).toList)) :
    (failAttempt o logger startTime error).wp (childServes outcome) post s written := by
  unfold failAttempt
  rw [Routine.wp_bind, Routine.wp_modify]
  dsimp only
  rw [Routine.wp_bind]
  apply wp_of_unreported unseen_closedFailed
  intro _
  dsimp only
  rw [Routine.wp_bind]
  apply wp_unreported rfl
  intro now
  cases hdescribe : error.reported.describe with
  -- String() throws on the error: nothing is settled, so nothing is reported.
  | none =>
    have hnone : written ++ (failureReport error).toList = written := by
      simp [failureReport, hdescribe]
    rw [← hnone]
    exact hpost _ _
  | some described =>
    have hreport : failureReport error =
        (some (ChildReport.failed described.1 described.2)).filter (·.toJson.casts) := by
      rw [failureReport, hdescribe, Option.map_some]
    rw [hreport] at hpost
    dsimp only
    rw [Routine.wp_bind, Routine.wp_modify]
    dsimp only
    rw [Routine.wp_bind]
    apply wp_of_unreported (coversGuards_unreported.callSpan _)
    intro _
    dsimp only
    rw [Routine.wp_bind]
    apply wp_of_unreported (coversGuards_unreported.callSpan _)
    intro _
    dsimp only
    rw [Routine.wp_bind]
    apply wp_of_unreported (coversGuards_unreported.callSpan _)
    intro _
    dsimp only
    rw [Routine.wp_bind, Routine.wp_modify]
    simp only [hlast, Bool.or_true, if_true, Routine.wp_bind]
    apply wp_of_unreported unseen_reportPermanentFailure
    intro _
    apply wp_settleFailure_child hwaited
    intro r
    exact hpost r _

/-! ## The task -/

/-- The `finally` block reports nothing. -/
private theorem wp_finishAttempt_child {post : Except Thrown Unit → Locals → List ChildReport → Prop}
    (hpost : ∀ r, post r s written) :
    (finishAttempt o logger startTime).wp (childServes outcome) post s written := by
  have hhook : ∀ event, (observe (onJobFinished o.runtime.metrics event) : Task Unit).Unseen
      unreported := by
    intro event
    apply coversGuards_unreported.observe
    unfold onJobFinished
    split
    · refine (coversGuards_unreported.recordJobFinished event).watches.bind fun _ => ?_
      exact watches_awaitObserver rfl
    · exact watches_awaitObserver rfl
  unfold finishAttempt
  rw [Routine.wp_bind]
  apply wp_unreported rfl
  intro _
  dsimp only
  rw [Routine.wp_bind]
  apply wp_unreported rfl
  intro now
  dsimp only
  rw [Routine.wp_bind, Routine.wp_get]
  dsimp only
  rw [Routine.wp_bind]
  apply wp_of_unreported (hhook _)
  intro _
  dsimp only
  split
  · exact hpost _
  · apply wp_of_unreported (coversGuards_unreported.log _ _ _ _)
    intro _
    exact hpost _

private theorem unseen_linked : (linkProducer o).Unseen unreported := by
  unfold linkProducer
  split
  · exact Routine.unseen_pure
  · refine (coversGuards_unreported.callSpan _).bind fun _ => ?_
    exact coversGuards_unreported.callSpan _

private theorem wp_taskBody_child {stored : Option Json} (hchild : o.RunsChild stored) :
    (taskBody o).wp (childServes outcome) (fun _ _ written => WorkerReports outcome written) s [] := by
  unfold taskBody
  rw [Routine.wp_bind]
  apply wp_unreported rfl
  intro startTime
  dsimp only
  rw [Routine.wp_bind]
  apply wp_of_unreported (coversGuards_unreported.callSpan _)
  intro _
  dsimp only
  rw [Routine.wp_bind]
  apply wp_of_unreported unseen_linked
  intro _
  dsimp only
  rw [Routine.wp_bind]
  apply wp_of_unreported (coversGuards_unreported.jobLogger _)
  intro logger
  dsimp only
  rw [Routine.wp_tryFinally, Routine.wp_tryCatch]
  apply wp_runAttempt_child hchild
  · intro output houtcome hcasts
    apply wp_finishAttempt_child
    intro r
    cases r <;> simp [WorkerReports, houtcome, hcasts]
  -- A refused output is an error of the last attempt, with the text of PostgreSQL.
  · intro output message houtcome hcasts hnul
    apply wp_failAttempt_child hchild.waited hchild.lastAttempt
    intro r s'
    apply wp_finishAttempt_child
    intro r'
    rw [failureReport_databaseError hnul]
    cases r' <;> simp [WorkerReports, houtcome, hcasts, hnul]
  · intro e houtcome
    apply wp_failAttempt_child hchild.waited hchild.lastAttempt
    intro r s'
    apply wp_finishAttempt_child
    intro r'
    cases r' <;> simp [WorkerReports, houtcome]

/-- The task of a child writes the report of its run, and nothing else. -/
theorem wp_executeTask_child {stored : Option Json} (hchild : o.RunsChild stored) :
    (executeTask o).wp (childServes outcome) (fun _ _ written => WorkerReports outcome written) s [] := by
  unfold executeTask withActiveSpan
  rw [Routine.wp_bind]
  apply wp_unreported rfl
  intro _
  dsimp only
  rw [Routine.wp_bind, Routine.wp_tryFinally]
  refine Routine.wp_mono ?_ (wp_taskBody_child hchild)
  intro r s' written hwritten
  apply wp_of_unreported (coversGuards_unreported.callSpan _)
  intro _
  cases r with
  | error e => exact hwritten
  | ok suspended => cases suspended <;> exact hwritten

end

/-! ## A child's run -/

/-- A child of a wait: its job, the payload it was enqueued with, and what its task reported. -/
structure ChildTask where
  id : JobId
  payload : Option Json
  written : List ChildReport

/-- The child's task ran to its end, with the queue's executor. -/
def ChildQueue.Ran {P V : Type} (queue : ChildQueue P V) (child : ChildTask) : Prop :=
  ∃ o r s, o.RunsChild child.payload ∧ o.helpers.id = child.id ∧
    (executeTask o).Runs (childServes (queue.run (.ofStored o.cleanPayload))) .initial [] r s
      child.written

namespace ChildQueue

variable {P V : Type} {queue : ChildQueue P V} {child : ChildTask}

theorem Ran.written (h : queue.Ran child) :
    WorkerReports (queue.run (.ofStored (child.payload.map Json.readBack))) child.written := by
  obtain ⟨o, r, s, hchild, -, hruns⟩ := h
  have hreports : (executeTask o).wp (childServes (queue.run (.ofStored o.cleanPayload)))
      (fun _ _ written => WorkerReports (queue.run (.ofStored o.cleanPayload)) written) .initial [] :=
    wp_executeTask_child hchild
  have hwritten := Routine.wp_of_runs hreports hruns
  rw [← hchild.cleanPayload]
  exact hwritten

end ChildQueue

/-! ## The checkpoint of the reports -/

/-- The statements that settle children, in order, beside transactions that leave the wait's rows alone. -/
inductive Settled (key : GroupKey) : Db → List (JobId × ChildReport) → Db → Prop where
  | done (db : Db) : Settled key db [] db
  | settle {now : Time} {helpers : HelpersJob} {settle : Settle} {report : ChildReport}
      {visible : WaitKey → Bool} {db db' db'' : Db} {rest : List (JobId × ChildReport)}
      (hsettle : settleJob now helpers settle visible db = (db', true))
      (hreport : settle.report = some report) (hvisible : ∀ idx, visible (key, idx) = true)
      (hrest : Settled key db' rest db'') : Settled key db ((helpers.id, report) :: rest) db''
  | other {db db' db'' : Db} {rest : List (JobId × ChildReport)}
      (hrows : db'.waitsOf key = db.waitsOf key) (hrest : Settled key db' rest db'') :
      Settled key db rest db''

section
variable {key : GroupKey} {db db' : Db}

end

end BetterGraphileWorker
