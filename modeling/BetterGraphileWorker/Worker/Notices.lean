-- SUMMARY: What executeTask tells of an attempt, to its hooks and to the store of finished jobs, agrees with how it settles.
import BetterGraphileWorker.Worker.ExecuteTask
import BetterGraphileWorker.Worker.Guards

/-!
# Notices

An attempt ends in one event. The permanent failure hook and the store of finished jobs are told
of the same end at other places of `executeTask`, and Graphile learns of it from the value or the
error that the task settles with. Nothing is assumed of the answers here: any statement, hook or
handler may return or throw anything.
-/

namespace BetterGraphileWorker.Notices

/-! ## What is noted -/

/-- The requests that tell of an attempt's end, and the answers that decide it. -/
inductive Note where
  | ran (answer : Except Thrown (Option Json))
  | ending (answer : Option Ending)
  | settled (settle : Settle) (answer : Except Thrown Bool)
  | failure (event : PermanentFailureEvent)
  | stored (job : CompletedJob)
  | finished (event : JobFinishedEvent)

def noted : (r : Request) → r.Reply → List Note
  | .observer (.onPermanentFailure event), _ => [.failure event]
  | .observer (.onJobFinished event), _ => [.finished event]
  | .effect .runExecutor, answer => [.ran answer]
  | .effect .endingsSettled, answer => [.ending answer]
  | .effect (.settleLockedJob settle), answer => [.settled settle answer]
  | .effect (.completedJob job), _ => [.stored job]
  | _, _ => []

/-- Every request may be answered in any way. -/
def serves (r : Request) (notes : List Note) (answer : r.Reply) (notes' : List Note) : Prop :=
  notes' = notes ++ noted r answer

def Note.failure? : Note → Option PermanentFailureEvent
  | .failure event => some event
  | _ => none

def Note.stored? : Note → Option CompletedJob
  | .stored job => some job
  | _ => none

def Note.finished? : Note → Option JobFinishedEvent
  | .finished event => some event
  | _ => none

def Note.ending? : Note → Option (Option Ending)
  | .ending answer => some answer
  | _ => none

def Note.settled? : Note → Option (Settle × Except Thrown Bool)
  | .settled settle answer => some (settle, answer)
  | _ => none

/-- What `endings.settled()` answered last. -/
def lastEnding (notes : List Note) : Option Ending := (notes.filterMap Note.ending?).getLast?.join

/-- The answer to the last statement that settled the row. -/
def lastSettled (notes : List Note) : Option (Settle × Except Thrown Bool) :=
  (notes.filterMap Note.settled?).getLast?

/-- Nothing has been told yet. -/
structure Quiet (notes : List Note) : Prop where
  failures : notes.filterMap Note.failure? = []
  stored : notes.filterMap Note.stored? = []
  finished : notes.filterMap Note.finished? = []

/-! ## Unnoted requests -/

/-- The requests that are noted whatever their answer. -/
def Request.telling : Request → Bool
  | .observer (.onPermanentFailure _) | .observer (.onJobFinished _) => true
  | .effect .runExecutor | .effect .endingsSettled => true
  | .effect (.settleLockedJob _) | .effect (.completedJob _) => true
  | _ => false

def unnoted : Hidden Request Request.Reply where
  requests r := Request.telling r = false
  answers _ _ := True

theorem coversGuards_unnoted : CoversGuards unnoted where
  calls call h := by cases call <;> first | rfl | cases h
  rejections _ _ _ _ := rfl

theorem noted_of_untelling {r : Request} (h : Request.telling r = false) (answer : r.Reply) :
    noted r answer = [] := by
  cases r with
  | observer call => cases call <;> first | rfl | cases h
  | effect e => cases e <;> first | rfl | cases h

section
variable {σ α : Type} {x : Code σ α} {s : σ} {notes : List Note}

private theorem unnoted_of_serves (r : Request) (notes : List Note) (answer : r.Reply)
    (notes' : List Note) (h : unnoted.requests r) (hserves : serves r notes answer notes') :
    unnoted.answers r answer ∧ notes' = notes := by
  rw [serves, noted_of_untelling h, List.append_nil] at hserves
  exact ⟨trivial, hserves⟩

theorem wp_of_watches {post : Except Thrown α → σ → List Note → Prop} (h : x.Watches unnoted)
    (hpost : ∀ r, post r s notes) : x.wp serves post s notes := by
  apply h.wp (P := fun w w' => w' = w) (fun _ => rfl) (fun _ _ _ h h' => h'.trans h) unnoted_of_serves
  intro r _ hkept
  subst hkept
  exact hpost r

theorem wp_of_unseen {post : Except Thrown α → σ → List Note → Prop} (h : x.Unseen unnoted)
    (hpost : ∀ a, post (.ok a) s notes) : x.wp serves post s notes := by
  apply h.wp (P := fun w w' => w' = w) (fun _ => rfl) (fun _ _ _ h h' => h'.trans h) unnoted_of_serves
  intro a _ hkept
  subst hkept
  exact hpost a

theorem wp_unnoted {e : Effect} {post : Except Thrown e.Reply → σ → List Note → Prop}
    (h : Request.telling (.effect e) = false) (hpost : ∀ answer, post (.ok answer) s notes) :
    (perform e).wp serves post s notes :=
  wp_of_unseen (unseen_perform h) hpost

theorem wp_perform {e : Effect} {post : Except Thrown e.Reply → σ → List Note → Prop}
    (hpost : ∀ answer, post (.ok answer) s (notes ++ noted (.effect e) answer)) :
    (perform e).wp serves post s notes := by
  rintro answer w' rfl
  exact hpost answer

/-- A hook is told, and `observe` returns whatever it does. -/
theorem wp_observe {call : ObserverCall} {post : Except Thrown Unit → σ → List Note → Prop}
    (hpost : post (.ok ()) s (notes ++ noted (.observer call) .nothing)) :
    (observe (awaitObserver call)).wp serves post s notes := by
  simp only [observe, awaitObserver, callObserver, Routine.wp_tryCatch, Routine.wp_bind]
  rintro reaction _ rfl
  have hnoted : noted (.observer call) reaction = noted (.observer call) .nothing := by
    cases call <;> rfl
  rw [hnoted]
  have hreport : ∀ e, (report e).wp serves post s (notes ++ noted (.observer call) .nothing) := by
    intro e
    exact wp_of_unseen (coversGuards_unnoted.report e) fun _ => hpost
  cases reaction with
  | rejected e => exact hreport e
  | threw e => exact hreport e
  | _ => exact hpost

end

theorem Quiet.nil : Quiet [] := ⟨rfl, rfl, rfl⟩

theorem Quiet.append {notes more : List Note} (h : Quiet notes) (hmore : Quiet more) :
    Quiet (notes ++ more) where
  failures := by rw [List.filterMap_append, h.failures, hmore.failures, List.append_nil]
  stored := by rw [List.filterMap_append, h.stored, hmore.stored, List.append_nil]
  finished := by rw [List.filterMap_append, h.finished, hmore.finished, List.append_nil]

/-! ## The try block -/

variable {o : ExecuteTaskOptions} {logger : Logger} {startTime : Time} {s : Locals} {notes : List Note}

private theorem wp_settledEnding {post : Except Thrown (Option Ending) → Locals → List Note → Prop}
    (hquiet : Quiet notes)
    (hpost : ∀ ending notes', Quiet notes' → lastEnding notes' = ending → post (.ok ending) s notes') :
    settledEnding.wp serves post s notes := by
  apply wp_perform
  intro ending
  refine hpost ending _ (hquiet.append ⟨rfl, rfl, rfl⟩) ?_
  simp [lastEnding, noted, List.filterMap_append, Note.ending?]

private theorem wp_settle {settled : ChildReport} {row : RowMode}
    {post : Except Thrown Bool → Locals → List Note → Prop} (hquiet : Quiet notes)
    (hsettled : ∀ answer notes', Quiet notes' → lastEnding notes' = lastEnding notes →
      lastSettled notes' = some (o.settlement settled row, answer) → post answer s notes')
    (hunsettled : o.settles row = false → post (.ok true) s notes) :
    (settle o settled row).wp serves post s notes := by
  unfold settle
  split
  · simp only [await, Routine.wp_bind]
    apply wp_perform
    intro answer
    have hended : lastEnding (notes ++ noted (.effect (.settleLockedJob (o.settlement settled row))) answer) =
        lastEnding notes := by
      simp [lastEnding, noted, List.filterMap_append, Note.ending?]
    refine hsettled answer _ (hquiet.append ⟨rfl, rfl, rfl⟩) hended ?_
    simp [lastSettled, noted, List.filterMap_append, Note.settled?]
  · rename_i hsettles
    exact hunsettled (Bool.eq_false_iff.mpr hsettles)

private theorem wp_runHandler {post : Except Thrown (Option Json) → Locals → List Note → Prop}
    (hquiet : Quiet notes) (hpost : ∀ r notes', Quiet notes' → post r s notes') :
    (runHandler o logger).wp serves post s notes := by
  simp only [runHandler, await, Routine.wp_tryCatch, Routine.wp_bind]
  apply wp_perform
  intro answer
  have hquiet' : Quiet (notes ++ noted (.effect .runExecutor) answer) := hquiet.append ⟨rfl, rfl, rfl⟩
  cases answer with
  | ok output => exact hpost _ _ hquiet'
  | error error =>
    simp only [Routine.wp_ofExcept]
    apply wp_settledEnding hquiet'
    intro ending notes' hquiet'' _
    cases ending with
    | none => exact hpost _ _ hquiet''
    | some ending =>
      dsimp only
      split
      · refine wp_of_watches ((watches_withText fun text => ?_).bind fun _ => Routine.unseen_pure.watches)
          fun r => hpost r _ hquiet''
        exact (coversGuards_unnoted.log _ _ _ _).watches
      · exact hpost _ _ hquiet''

private theorem unseen_closed {persist : Bool} :
    (Routine.tryCatch (await (perform (.closeProgress persist))) fun _ => pure () :
      Task Unit).Unseen unnoted :=
  (watches_await (unseen_perform rfl)).guarded fun _ => Routine.unseen_pure

/-- The completed job is stored. -/
private theorem wp_storeCompletion {post : Except Thrown Unit → Locals → List Note → Prop}
    (hpost : ∀ completedAt durationMs,
      post (.ok ()) s (notes ++ [.stored (o.finishedJob .success completedAt durationMs none)])) :
    (storeCompletion o startTime).wp serves post s notes := by
  simp only [storeCompletion, Routine.wp_bind]
  apply wp_unnoted rfl
  intro now
  apply wp_of_unseen (coversGuards_unnoted.callSpan _)
  intro _
  apply wp_of_unseen (coversGuards_unnoted.callSpan _)
  intro _
  apply wp_unnoted rfl
  intro completedAt
  apply wp_perform
  intro _
  exact hpost completedAt _

/-- How the `try` block ends. -/
private theorem wp_runAttempt {post : Except Thrown (Option String) → Locals → List Note → Prop}
    (hquiet : Quiet notes)
    (hwaiting : ∀ waitId notes', Quiet notes' → lastEnding notes' = some (.waiting waitId) →
      post (.ok (some waitId)) { s with suspended := some waitId } notes')
    (hcontinued : ∀ id completedAt durationMs notes', Quiet notes' →
      lastEnding notes' = some (.continued id) → post (.ok none) { s with continued := true }
        (notes' ++ [.stored (o.finishedJob .success completedAt durationMs none)]))
    (hcompleted : ∀ output completedAt durationMs notes', Quiet notes' → lastEnding notes' = none →
      (o.settles .delete = true →
        lastSettled notes' = some (o.settlement (.ok output) .delete, .ok true)) →
      post (.ok none) s (notes' ++ [.stored (o.finishedJob .success completedAt durationMs none)]))
    (herror : ∀ e notes', Quiet notes' → post (.error e) s notes') :
    (runAttempt o logger startTime).wp serves post s notes := by
  unfold runAttempt assertPayloadEnvelope
  rw [Routine.wp_bind]
  split
  · rw [Routine.wp_pure]
    dsimp only
    rw [Routine.wp_bind]
    apply wp_runHandler hquiet
    intro r notes₁ hquiet₁
    cases r with
    | error e => exact herror e _ hquiet₁
    | ok output =>
      dsimp only
      rw [Routine.wp_bind]
      apply wp_settledEnding hquiet₁
      intro ending notes₂ hquiet₂ hending
      cases ending with
      | some ending =>
        cases ending with
        | waiting waitId =>
          dsimp only
          unfold suspendRun
          rw [Routine.wp_bind, Routine.wp_modify]
          dsimp only
          rw [Routine.wp_bind]
          apply wp_of_unseen unseen_closed
          intro _
          dsimp only
          rw [Routine.wp_bind]
          apply wp_of_unseen (coversGuards_unnoted.callSpan _)
          intro _
          dsimp only
          rw [Routine.wp_bind]
          apply wp_of_unseen (coversGuards_unnoted.callSpan _)
          intro _
          exact hwaiting waitId _ hquiet₂ hending
        | continued id =>
          dsimp only
          rw [Routine.wp_bind, Routine.wp_modify]
          dsimp only
          unfold completeRun
          rw [Routine.wp_bind]
          apply wp_of_unseen unseen_closed
          intro _
          simp only [Bool.not_true, Bool.false_eq_true, if_false, Routine.wp_bind, Routine.wp_pure]
          apply wp_storeCompletion
          intro completedAt durationMs
          exact hcontinued id completedAt durationMs _ hquiet₂ hending
      | none =>
        dsimp only
        unfold completeRun
        rw [Routine.wp_bind]
        apply wp_of_unseen unseen_closed
        intro _
        simp only [Bool.not_false, if_true, settleCompletion, Routine.wp_bind]
        apply wp_settle hquiet₂
        · intro answer notes₃ hquiet₃ hsame hsettled
          cases answer with
          | error e => exact herror e _ hquiet₃
          | ok owned =>
            cases owned with
            | false => exact herror _ _ hquiet₃
            | true =>
              simp only [Bool.not_true, Bool.false_eq_true, if_false, Routine.wp_pure]
              apply wp_storeCompletion
              intro completedAt durationMs
              exact hcompleted output completedAt durationMs _ hquiet₃ (hsame.trans hending) fun _ => hsettled
        · intro hsettles
          simp only [Bool.not_true, Bool.false_eq_true, if_false, Routine.wp_pure]
          apply wp_storeCompletion
          intro completedAt durationMs
          refine hcompleted output completedAt durationMs _ hquiet₂ hending fun hnot => ?_
          rw [hsettles] at hnot
          cases hnot
  · exact herror _ _ hquiet

/-! ## The catch block -/

/-- What `onPermanentFailure` is told. -/
def failureEvent (o : ExecuteTaskOptions) (error : Thrown) : PermanentFailureEvent where
  error := error
  queue := o.queueName
  jobId := o.helpers.id
  operation := o.operation
  attempts := o.helpers.attempts
  maxAttempts := o.helpers.maxAttempts
  payload := o.cleanPayload

/-- How the `catch` block ends, in which the failure is told of if it is permanent. -/
structure Failed (o : ExecuteTaskOptions) (s : Locals) (r : Except Thrown (Option String))
    (s' : Locals) (notes : List Note) : Prop where
  status : s'.status = .failed
  continued : s'.continued = s.continued
  suspended : s'.suspended = s.suspended
  finished : notes.filterMap Note.finished? = []
  told : if s'.permanent then
      ∃ error errorType message completedAt durationMs, error.describe = some (errorType, message) ∧
        s'.errorType = some errorType ∧ s'.errorMessage = some message ∧
        notes.filterMap Note.failure? = [failureEvent o error] ∧
        notes.filterMap Note.stored? = [o.finishedJob .failed completedAt durationMs (some message)]
    else notes.filterMap Note.failure? = [] ∧ notes.filterMap Note.stored? = []
  /-- A task that has failed returns only if the failure is discarded. -/
  discarded : ∀ v, r = .ok v → v = none ∧ o.runtime.discard = true ∧ s'.permanent = true ∧
    ∃ error, error.isNonRetriable = true ∧ notes.filterMap Note.failure? = [failureEvent o error]

private theorem watches_closeFailedProgress : (closeFailedProgress o logger).Watches unnoted := by
  refine (watches_await (unseen_perform rfl)).orElse fun e => ?_
  exact watches_withText fun text => (coversGuards_unnoted.log logger _ _ _).watches

/-- A statement of the `catch` block that settles the failure tells nothing. -/
private theorem wp_settle_quiet {settled : ChildReport} {row : RowMode}
    {post : Except Thrown Bool → Locals → List Note → Prop}
    (hpost : ∀ r more, Quiet more → post r s (notes ++ more)) :
    (settle o settled row).wp serves post s notes := by
  unfold settle
  split
  · simp only [await, Routine.wp_bind]
    apply wp_perform
    intro answer
    exact hpost answer _ ⟨rfl, rfl, rfl⟩
  · have hnone := hpost (.ok true) [] .nil
    rw [List.append_nil] at hnone
    exact hnone

private theorem wp_retryLater {error : Thrown} {post : Except Thrown Unit → Locals → List Note → Prop}
    (hpost : ∀ r retryAt, post r { s with retryAt } notes) :
    (retryLater error).wp serves post s notes := by
  unfold retryLater
  split
  · simp only [await, Routine.wp_bind]
    apply wp_unnoted rfl
    intro answer
    cases answer with
    | error e => exact hpost _ s.retryAt
    | ok retryAt => exact hpost _ (some retryAt)
  · exact hpost _ s.retryAt

private theorem wp_recordFailure {failure : ChildReport} {row : RowMode}
    {post : Except Thrown Unit → Locals → List Note → Prop}
    (hpost : ∀ r more, Quiet more → post r s (notes ++ more)) :
    (recordFailure o logger failure row).wp serves post s notes := by
  simp only [recordFailure, Routine.wp_tryCatch, Routine.wp_bind]
  apply wp_settle_quiet
  intro r more hquiet
  cases r with
  | ok _ => exact hpost _ _ hquiet
  | error e =>
    apply wp_of_watches (watches_withText fun text => (coversGuards_unnoted.log logger _ _ _).watches)
    intro r
    exact hpost r _ hquiet

private theorem reported_of_isNonRetriable {error : Thrown} (h : error.isNonRetriable = true) :
    error.reported = error := by
  cases error <;> first | rfl | cases h

/-- The end of the `catch` block returns only what is discarded. -/
private theorem wp_settleFailure {error : Thrown} {failure : ChildReport} {permanent : Bool}
    {post : Except Thrown (Option String) → Locals → List Note → Prop}
    (hpermanent : permanent = false → error.isNonRetriable = false)
    (hthrow : ∀ e retryAt more, Quiet more → post (.error e) { s with retryAt } (notes ++ more))
    (hdiscard : ∀ more, Quiet more → permanent = true → o.runtime.discard = true →
      error.isNonRetriable = true → post (.ok none) s (notes ++ more)) :
    (settleFailure o logger error failure permanent).wp serves post s notes := by
  unfold settleFailure
  cases permanent with
  | false =>
    simp only [hpermanent rfl, Bool.not_false, if_true, Bool.false_and, Bool.false_eq_true, if_false,
      Routine.wp_bind]
    apply wp_retryLater
    intro r retryAt
    rw [← List.append_nil notes]
    cases r <;> exact hthrow _ retryAt [] .nil
  | true =>
    have hthrown : ∀ e more, Quiet more → post (.error e) s (notes ++ more) :=
      fun e more hquiet => hthrow e s.retryAt more hquiet
    simp only [Bool.not_true, Bool.false_eq_true, if_false, if_true]
    cases hnon : error.isNonRetriable with
    | false =>
      simp only [Bool.false_and, Bool.false_eq_true, if_false, Routine.wp_bind]
      apply wp_recordFailure
      intro r more hquiet
      cases r <;> exact hthrown _ more hquiet
    | true =>
      cases hdisc : o.runtime.discard with
      | true =>
        simp only [Bool.not_true, Bool.and_false, Bool.false_eq_true, if_false, if_true, Routine.wp_bind]
        apply wp_recordFailure
        intro r more hquiet
        cases r with
        | error e => exact hthrown e more hquiet
        | ok _ => exact hdiscard more hquiet rfl hdisc hnon
      | false =>
        simp only [Bool.not_false, Bool.and_true, if_true, retainJob, Routine.wp_bind]
        apply wp_settle_quiet
        intro r more hquiet
        cases r with
        | error e => exact hthrown e more hquiet
        | ok owned => cases owned <;> exact hthrown _ more hquiet

/-- The hook and the store are told of a permanent failure. -/
private theorem wp_reportPermanentFailure {reported : Thrown} {message : String} {durationMs : Time}
    {post : Except Thrown Unit → Locals → List Note → Prop}
    (hpost : ∀ completedAt, post (.ok ()) s (notes ++ [.failure (failureEvent o reported),
      .stored (o.finishedJob .failed completedAt durationMs (some message))])) :
    (reportPermanentFailure o reported message durationMs).wp serves post s notes := by
  simp only [reportPermanentFailure, Routine.wp_bind]
  apply wp_observe
  dsimp only
  apply wp_unnoted rfl
  intro completedAt
  apply wp_perform
  rintro ⟨⟩
  rw [List.append_assoc]
  exact hpost completedAt

private theorem Failed.permanent {r : Except Thrown (Option String)} {s' : Locals} {error : Thrown}
    {errorType message : String} {completedAt durationMs : Time} {more : List Note}
    (hquiet : Quiet notes) (hmore : Quiet more) (hstatus : s'.status = .failed)
    (hcontinued : s'.continued = s.continued) (hsuspended : s'.suspended = s.suspended)
    (hpermanent : s'.permanent = true) (hdescribe : error.describe = some (errorType, message))
    (htype : s'.errorType = some errorType) (hmessage : s'.errorMessage = some message)
    (hdiscard : ∀ v, r = .ok v → v = none ∧ o.runtime.discard = true ∧ error.isNonRetriable = true) :
    Failed o s r s' (notes ++ [.failure (failureEvent o error),
      .stored (o.finishedJob .failed completedAt durationMs (some message))] ++ more) := by
  have hfailure : (notes ++ [Note.failure (failureEvent o error),
      Note.stored (o.finishedJob .failed completedAt durationMs (some message))] ++ more).filterMap
      Note.failure? = [failureEvent o error] := by
    simp only [List.filterMap_append, hquiet.failures, hmore.failures]
    rfl
  refine ⟨hstatus, hcontinued, hsuspended, ?_, ?_, ?_⟩
  · simp only [List.filterMap_append, hquiet.finished, hmore.finished]
    rfl
  · rw [if_pos hpermanent]
    refine ⟨error, errorType, message, completedAt, durationMs, hdescribe, htype, hmessage, hfailure, ?_⟩
    simp only [List.filterMap_append, hquiet.stored, hmore.stored]
    rfl
  · intro v h
    obtain ⟨hv, hdisc, hnon⟩ := hdiscard v h
    exact ⟨hv, hdisc, hpermanent, error, hnon, hfailure⟩

/-- A caught error fails the attempt. -/
private theorem wp_failAttempt {error : Thrown} {post : Except Thrown (Option String) → Locals → List Note → Prop}
    (hquiet : Quiet notes) (hs : s.permanent = false)
    (hpost : ∀ r s' notes', Failed o s r s' notes' → post r s' notes') :
    (failAttempt o logger startTime error).wp serves post s notes := by
  have hearly : ∀ e s', s'.status = .failed → s'.continued = s.continued → s'.suspended = s.suspended →
      s'.permanent = false → post (.error e) s' notes := by
    intro e s' hstatus hcontinued hsuspended hnot
    refine hpost _ _ _ ⟨hstatus, hcontinued, hsuspended, hquiet.finished, ?_, fun v h => by cases h⟩
    simp [hnot, hquiet.failures, hquiet.stored]
  unfold failAttempt
  rw [Routine.wp_bind, Routine.wp_modify]
  dsimp only
  rw [Routine.wp_bind]
  apply wp_of_watches watches_closeFailedProgress
  intro r
  cases r with
  | error e => exact hearly _ _ rfl rfl rfl hs
  | ok _ =>
    dsimp only
    rw [Routine.wp_bind]
    apply wp_unnoted rfl
    intro now
    cases hdescribe : error.reported.describe with
    -- String() throws on the error, before anybody is told.
    | none => exact hearly _ _ rfl rfl rfl hs
    | some described =>
      dsimp only
      rw [Routine.wp_bind, Routine.wp_modify]
      dsimp only
      rw [Routine.wp_bind]
      apply wp_of_unseen (coversGuards_unnoted.callSpan _)
      intro _
      dsimp only
      rw [Routine.wp_bind]
      apply wp_of_unseen (coversGuards_unnoted.callSpan _)
      intro _
      dsimp only
      rw [Routine.wp_bind]
      apply wp_of_unseen (coversGuards_unnoted.callSpan _)
      intro _
      dsimp only
      rw [Routine.wp_bind, Routine.wp_modify]
      cases hverdict : error.isNonRetriable || o.lastAttempt with
      | false =>
        simp only [Bool.false_eq_true, if_false]
        apply wp_settleFailure fun _ => (Bool.or_eq_false_iff.mp hverdict).1
        · intro e retryAt more hmore
          have hall := hquiet.append hmore
          refine hpost _ _ _ ⟨rfl, rfl, rfl, hall.finished, ?_, fun v h => by cases h⟩
          simp [hall.failures, hall.stored]
        · intro more _ hnot
          cases hnot
      -- The hook and the store are told first, whatever the settling statement does then.
      | true =>
        simp only [if_true, Routine.wp_bind]
        apply wp_reportPermanentFailure
        intro completedAt
        dsimp only
        apply wp_settleFailure fun hnot => by cases hnot
        · intro e retryAt more hmore
          exact hpost _ _ _ (.permanent hquiet hmore rfl rfl rfl rfl hdescribe rfl rfl fun v h => by cases h)
        · intro more hmore _ hdiscard hnon
          refine hpost _ _ _ (.permanent hquiet hmore rfl rfl rfl rfl hdescribe rfl rfl fun v h => ?_)
          rw [reported_of_isNonRetriable hnon]
          exact ⟨(Except.ok.inj h).symm, hdiscard, hnon⟩

/-! ## The finally block -/

private theorem wp_finishAttempt {post : Except Thrown Unit → Locals → List Note → Prop}
    (hpost : ∀ durationMs, post (.ok ()) s (notes ++ [.finished (o.finishedEvent s durationMs)]))
    (huncut : s.uncuttable = true → ∀ durationMs,
      post (.error .noSlice) s (notes ++ [.finished (o.finishedEvent s durationMs)])) :
    (finishAttempt o logger startTime).wp serves post s notes := by
  have hhook : ∀ {event} {post' : Except Thrown Unit → Locals → List Note → Prop},
      post' (.ok ()) s (notes ++ [.finished event]) →
      (observe (onJobFinished o.runtime.metrics event)).wp serves post' s notes := by
    intro event post' hpost'
    have hhook : (observe (awaitObserver (.onJobFinished event))).wp serves post' s notes := wp_observe hpost'
    unfold onJobFinished
    cases o.runtime.metrics with
    | false => exact hhook
    | true =>
      simp only [observe, Routine.wp_tryCatch] at hhook
      simp only [observe, Routine.wp_tryCatch, if_true, Routine.wp_bind]
      exact wp_of_unseen (coversGuards_unnoted.recordJobFinished event) fun _ => hhook
  unfold finishAttempt
  rw [Routine.wp_bind]
  apply wp_unnoted rfl
  intro _
  dsimp only
  rw [Routine.wp_bind]
  apply wp_unnoted rfl
  intro now
  dsimp only
  rw [Routine.wp_bind, Routine.wp_get]
  dsimp only
  rw [Routine.wp_bind]
  apply hhook
  dsimp only
  split
  · rename_i huncuttable
    exact huncut huncuttable _
  · apply wp_of_unseen (coversGuards_unnoted.log _ _ _ _)
    intro _
    exact hpost _

/-! ## The task -/

/-- The event of an attempt agrees with what was noted before it, and with how the task settles. -/
structure Agrees (o : ExecuteTaskOptions) (event : JobFinishedEvent) (r : Except Thrown Unit)
    (before : List Note) : Prop where
  names : event.queue = o.queueName ∧ event.jobId = o.helpers.id ∧ event.operation = o.operation ∧
    event.attempt = o.helpers.attempts ∧ event.maxAttempts = o.helpers.maxAttempts
  failed : event.status = .failed → event.continued = false ∧ event.waiting = false
  /-- A permanent failure is told of once to each, in the words of the event. -/
  permanent : if event.permanentlyFailed then event.status = .failed ∧
      ∃ error errorType message completedAt durationMs, error.describe = some (errorType, message) ∧
        event.errorType = some errorType ∧ event.errorMessage = some message ∧
        before.filterMap Note.failure? = [failureEvent o error] ∧
        before.filterMap Note.stored? = [o.finishedJob .failed completedAt durationMs (some message)]
    else before.filterMap Note.failure? = []
  stored : event.permanentlyFailed = false →
    if event.status = .success ∧ event.waiting = false then ∃ completedAt durationMs,
      before.filterMap Note.stored? = [o.finishedJob .success completedAt durationMs none]
    else before.filterMap Note.stored? = []
  waiting : event.waiting = true → event.continued = false ∧
    ∃ waitId, r = .error (.jobSuspended waitId) ∧ lastEnding before = some (.waiting waitId)
  continued : event.continued = true → r = .ok () ∧ ∃ id, lastEnding before = some (.continued id)
  completed : event.status = .success → event.waiting = false → event.continued = false →
    r = .ok () ∧ lastEnding before = none ∧ (o.settles .delete = true → ∃ output,
      lastSettled before = some (o.settlement (.ok output) .delete, .ok true))
  /-- Graphile completes the job of a task that returns; of failures only a discarded one does. -/
  returned : r = .ok () → event.status = .success ∧ event.waiting = false ∨
    o.runtime.discard = true ∧ event.permanentlyFailed = true ∧ ∃ error,
      error.isNonRetriable = true ∧ before.filterMap Note.failure? = [failureEvent o error]

/-- One event, at the end. -/
def Account (o : ExecuteTaskOptions) (r : Except Thrown Unit) (notes : List Note) : Prop :=
  ∃ event before, notes = before ++ [.finished event] ∧ before.filterMap Note.finished? = [] ∧
    Agrees o event r before

/-- What `executeTask` throws after its span, if it does. -/
def taskResult : Except Thrown (Option String) → Except Thrown Unit
  | .ok none => .ok ()
  | .ok (some waitId) => .error (.jobSuspended waitId)
  | .error e => .error e

private theorem account_waiting {waitId : String} {durationMs : Time} (hquiet : Quiet notes)
    (hending : lastEnding notes = some (.waiting waitId)) :
    Account o (taskResult (.ok (some waitId))) (notes ++
      [.finished (o.finishedEvent { Locals.initial with suspended := some waitId } durationMs)]) := by
  refine ⟨_, notes, rfl, hquiet.finished, ⟨rfl, rfl, rfl, rfl, rfl⟩, ?_, hquiet.failures, ?_, ?_, ?_, ?_, ?_⟩
  · intro h; cases h
  · intro _
    exact hquiet.stored
  · intro _
    exact ⟨rfl, waitId, rfl, hending⟩
  · intro h; cases h
  · intro _ h; cases h
  · intro h; cases h

private theorem account_continued {id : JobId} {completedAt durationMs durationMs' : Time}
    (hquiet : Quiet notes) (hending : lastEnding notes = some (.continued id)) :
    Account o (taskResult (.ok none))
      (notes ++ [.stored (o.finishedJob .success completedAt durationMs none)] ++
        [.finished (o.finishedEvent { Locals.initial with continued := true } durationMs')]) := by
  refine ⟨_, _, rfl, ?_, ⟨rfl, rfl, rfl, rfl, rfl⟩, ?_, ?_, ?_, ?_, ?_, ?_, ?_⟩
  · rw [List.filterMap_append, hquiet.finished]
    rfl
  · intro h; cases h
  · show List.filterMap _ _ = _
    rw [List.filterMap_append, hquiet.failures]
    rfl
  · intro _
    refine ⟨completedAt, durationMs, ?_⟩
    rw [List.filterMap_append, hquiet.stored]
    rfl
  · intro h; cases h
  · intro _
    refine ⟨rfl, id, ?_⟩
    rw [← hending, lastEnding, lastEnding, List.filterMap_append]
    simp [Note.ending?]
  · intro _ _ h; cases h
  · intro _
    exact .inl ⟨rfl, rfl⟩

private theorem account_completed {output : Option Json} {completedAt durationMs durationMs' : Time}
    (hquiet : Quiet notes) (hending : lastEnding notes = none)
    (hsettled : o.settles .delete = true →
      lastSettled notes = some (o.settlement (.ok output) .delete, .ok true)) :
    Account o (taskResult (.ok none))
      (notes ++ [.stored (o.finishedJob .success completedAt durationMs none)] ++
        [.finished (o.finishedEvent Locals.initial durationMs')]) := by
  refine ⟨_, _, rfl, ?_, ⟨rfl, rfl, rfl, rfl, rfl⟩, ?_, ?_, ?_, ?_, ?_, ?_, ?_⟩
  · rw [List.filterMap_append, hquiet.finished]
    rfl
  · intro h; cases h
  · show List.filterMap _ _ = _
    rw [List.filterMap_append, hquiet.failures]
    rfl
  · intro _
    refine ⟨completedAt, durationMs, ?_⟩
    rw [List.filterMap_append, hquiet.stored]
    rfl
  · intro h; cases h
  · intro h; cases h
  · intro _ _ _
    refine ⟨rfl, ?_, fun hsettles => ⟨output, ?_⟩⟩
    · rw [← hending, lastEnding, lastEnding, List.filterMap_append]
      simp [Note.ending?]
    · rw [← hsettled hsettles, lastSettled, lastSettled, List.filterMap_append]
      simp [Note.settled?]
  · intro _
    exact .inl ⟨rfl, rfl⟩

private theorem account_failed {r : Except Thrown (Option String)} {s : Locals} {durationMs : Time}
    (h : Failed o Locals.initial r s notes) :
    Account o (taskResult r) (notes ++ [.finished (o.finishedEvent s durationMs)]) := by
  have hpermanent : (o.finishedEvent s durationMs).permanentlyFailed = s.permanent := by
    simp [ExecuteTaskOptions.finishedEvent, h.status]
  have hstatus : (o.finishedEvent s durationMs).status = .failed := h.status
  have hwaiting : (o.finishedEvent s durationMs).waiting = false := by
    simp [ExecuteTaskOptions.finishedEvent, h.suspended, Locals.initial]
  have hcontinued : (o.finishedEvent s durationMs).continued = false := by
    simp [ExecuteTaskOptions.finishedEvent, h.continued, Locals.initial]
  have htold := h.told
  refine ⟨_, _, rfl, h.finished, ⟨rfl, rfl, rfl, rfl, rfl⟩, fun _ => ⟨hcontinued, hwaiting⟩, ?_, ?_, ?_, ?_, ?_, ?_⟩
  · rw [hpermanent]
    cases hp : s.permanent with
    | false =>
      simp only [hp, Bool.false_eq_true, if_false] at htold ⊢
      exact htold.1
    | true =>
      simp only [hp, if_true] at htold ⊢
      exact ⟨hstatus, htold⟩
  · intro hnot
    rw [hpermanent] at hnot
    simp only [hnot, Bool.false_eq_true, if_false] at htold
    rw [if_neg (by simp [hstatus])]
    exact htold.2
  · intro hnot
    rw [hwaiting] at hnot
    cases hnot
  · intro hnot
    rw [hcontinued] at hnot
    cases hnot
  · intro hnot
    rw [hstatus] at hnot
    cases hnot
  · intro hreturned
    cases r with
    | error e => cases hreturned
    | ok v =>
      obtain ⟨rfl, hdiscard, hp, hfailure⟩ := h.discarded v rfl
      exact .inr ⟨hdiscard, hpermanent.trans hp, hfailure⟩

/-- What the `finally` block throws of a failure takes the place of its result. -/
private theorem Failed.throws {r : Except Thrown (Option String)} {s s' : Locals} {e : Thrown}
    (h : Failed o s r s' notes) : Failed o s (.error e) s' notes :=
  { h with discarded := fun v hv => by cases hv }

private theorem unseen_linkProducer : (linkProducer o).Unseen unnoted := by
  unfold linkProducer
  split
  · exact Routine.unseen_pure
  · refine (coversGuards_unnoted.callSpan _).bind fun _ => ?_
    exact coversGuards_unnoted.callSpan _

private theorem wp_taskBody : (taskBody o).wp serves
    (fun r _ notes => Account o (taskResult r) notes) Locals.initial [] := by
  unfold taskBody
  rw [Routine.wp_bind]
  apply wp_unnoted rfl
  intro startTime
  dsimp only
  rw [Routine.wp_bind]
  apply wp_of_unseen (coversGuards_unnoted.callSpan _)
  intro _
  dsimp only
  rw [Routine.wp_bind]
  apply wp_of_unseen unseen_linkProducer
  intro _
  dsimp only
  rw [Routine.wp_bind]
  apply wp_of_unseen (coversGuards_unnoted.jobLogger _)
  intro logger
  dsimp only
  rw [Routine.wp_tryFinally, Routine.wp_tryCatch]
  apply wp_runAttempt .nil
  · intro waitId notes hquiet hending
    apply wp_finishAttempt
    · intro durationMs
      exact account_waiting hquiet hending
    · intro huncut
      cases huncut
  · intro id completedAt durationMs notes hquiet hending
    apply wp_finishAttempt
    · intro durationMs'
      exact account_continued hquiet hending
    · intro huncut
      cases huncut
  · intro output completedAt durationMs notes hquiet hending hsettled
    apply wp_finishAttempt
    · intro durationMs'
      exact account_completed hquiet hending hsettled
    · intro huncut
      cases huncut
  · intro e notes hquiet
    apply wp_failAttempt hquiet rfl
    intro r s notes' hfailed
    apply wp_finishAttempt
    · intro durationMs
      exact account_failed hfailed
    · intro _ durationMs
      exact account_failed hfailed.throws

theorem account_of_runs {r : Except Thrown Unit} {s : Locals}
    (h : (executeTask o).Runs serves Locals.initial [] r s notes) : Account o r notes := by
  suffices hwp : (executeTask o).wp serves (fun r _ notes => Account o r notes) Locals.initial [] from
    Routine.wp_of_runs hwp h
  unfold executeTask withActiveSpan
  rw [Routine.wp_bind]
  apply wp_unnoted rfl
  intro _
  dsimp only
  rw [Routine.wp_bind, Routine.wp_tryFinally]
  refine Routine.wp_mono ?_ wp_taskBody
  intro r s notes haccount
  apply wp_of_unseen (coversGuards_unnoted.callSpan _)
  intro _
  cases r with
  | error e => exact haccount
  | ok suspended => cases suspended <;> exact haccount

/--
Whatever the handler, the database and the observers do, an attempt ends in one event, which
agrees with the hook, with the store of finished jobs and with what Graphile learns.
-/
theorem notices_agree {r : Except Thrown Unit} {s : Locals}
    (h : (executeTask o).Runs serves Locals.initial [] r s notes) : Account o r notes :=
  account_of_runs h

namespace LastAttemptTrace

def task : ExecuteTaskOptions where
  queueName := "mail"
  helpers := ⟨1, "pool", 0, 3, 3, Payload.injectTraceContext none none⟩
  taskIdentifier := "mail"
  createdAt := 0
  operation := .process
  extraAttributes := []
  runtime := ⟨true, false, false⟩

/-- The handler throws, and so does the hook. -/
def answer : (r : Request) → List Note → Option (r.Reply × List Note)
  | .observer (.onPermanentFailure event), notes =>
    some (.threw (.error "Error" "hook"), notes ++ [.failure event])
  | .observer call, notes => some (.nothing, notes ++ noted (.observer call) .nothing)
  | .effect .now, notes => some (0, notes)
  | .effect .heartbeatReady, notes => some ((), notes)
  | .effect .runExecutor, notes =>
    some (.error (.error "Error" "smtp down"), notes ++ [.ran (.error (.error "Error" "smtp down"))])
  | .effect .endingsSettled, notes => some (none, notes ++ [.ending none])
  | .effect (.closeProgress _), notes => some (.ok (), notes)
  | .effect (.settleLockedJob settle), notes => some (.ok true, notes ++ [.settled settle (.ok true)])
  | .effect (.completedJob job), notes => some ((), notes ++ [.stored job])
  | .effect .disposeAttempt, notes => some ((), notes)
  | .effect _, _ => none

theorem serves_answer (r : Request) (notes : List Note) (reply : r.Reply) (notes' : List Note)
    (h : answer r notes = some (reply, notes')) : serves r notes reply notes' := by
  unfold answer at h
  split at h <;> cases h
  case h_2 call _ => cases call <;> rfl
  all_goals first | rfl | exact (List.append_nil _).symm

/-- The failure is permanent: the hook, the store and the event are told so. -/
def toldOfFailure (notes : List Note) : Bool :=
  match notes with
  | [.ran _, .ending none, .failure failure, .stored job, .settled _ _, .finished event] =>
    failure.jobId = 1 && job.status = .failed && event.permanentlyFailed
  | _ => false

end LastAttemptTrace

theorem notices_agree_last_attempt : ∃ r s notes,
    (executeTask LastAttemptTrace.task).Runs serves Locals.initial [] r s notes ∧
      LastAttemptTrace.toldOfFailure notes = true ∧ Account LastAttemptTrace.task r notes := by
  obtain ⟨⟨r, s⟩, notes, hruns, htold⟩ := Program.exists_runs_of_play LastAttemptTrace.serves_answer
    (p := executeTask LastAttemptTrace.task Locals.initial) (w := [])
    (fun _ notes => LastAttemptTrace.toldOfFailure notes) (by decide)
  exact ⟨r, s, notes, hruns, htold, notices_agree hruns⟩

end BetterGraphileWorker.Notices
