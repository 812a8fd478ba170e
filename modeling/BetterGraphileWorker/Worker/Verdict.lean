-- SUMMARY: The permanence verdict: when executeTask's treatment of a failure agrees with whether the job can run again.
import BetterGraphileWorker.Database.Effects
import BetterGraphileWorker.Worker.TaskWorld

/-!
# The permanence verdict

A failed attempt is treated as permanent or not: its hooks, its event, its outcome and
the report to waiting parents say which. The row decides on its own, after Graphile's
update: a job is dead if the row is gone or out of attempts. The verdict comes from the
claim's attempts, so other transactions can make the two differ, and so can a statement
that fails, an error that cannot be read and one whose message cannot be cut.
-/

namespace BetterGraphileWorker

/-! ## Treatment and row -/

/-- Everything that `executeTask` does about a failure fits a job that is dead or not. -/
structure Agrees (o : ExecuteTaskOptions) (w : TaskWorld) (dead : Bool) : Prop where
  hooks : w.hooks = if dead then 1 else 0
  finished : ∃ event, w.finished = [event] ∧ event.status = .failed ∧
    event.permanentlyFailed = dead ∧ (dead = true → event.retryAt = none)
  recorded : o.runtime.jobOutcomes = true → w.recorded = dead
  reported : o.waited = true → w.reported = dead

/-- The verdict of `executeTask`; it stays false when the error's text cannot be read. -/
def ExecuteTaskOptions.permanent (o : ExecuteTaskOptions) (error : Thrown) : Bool :=
  error.reported.describe.isSome && (error.isNonRetriable || o.lastAttempt)

/-- A permanent failure after which the `catch` block returns. -/
def ExecuteTaskOptions.discards (o : ExecuteTaskOptions) (error : Thrown) : Bool :=
  error.reported.describe.isSome && error.isNonRetriable && o.runtime.discard

variable {o : ExecuteTaskOptions} {logger : Logger} {startTime : Time} {error : Thrown}
  {s : Locals} {w w' : TaskWorld}

/-! ## The try block -/

private theorem completes_of_settles {output : Option Json} (h : o.settles .delete = true) :
    (o.settlement (.ok output) .delete).completes = true := by
  simp only [ExecuteTaskOptions.settles, reduceCtorEq, decide_false, Bool.or_false,
    Bool.or_eq_true] at h
  rcases h with h | h <;> simp [Settle.completes, ExecuteTaskOptions.settlement, settledOutcome, h]

/-- A completion that does not commit leaves the attempt as it was. -/
private theorem wp_settle_completed {output : Option Json}
    {post : Except Thrown Bool → Locals → TaskWorld → Prop} (hok : ∀ w', post (.ok true) s w')
    (hno : ∀ r w', Passes o.helpers w w' → post r s w') :
    (settle o (.ok output) .delete).wp (served o.helpers) post s w := by
  unfold settle
  split
  · rename_i hsettles
    unfold await
    rw [Routine.wp_bind]
    rintro answer w' ⟨db, hlock, hanswer⟩
    have hcompletes : (o.settlement (.ok output) .delete).completes = true :=
      completes_of_settles hsettles
    have hdb : Passes o.helpers w (w.others o.helpers db) := .others hlock
    have hsettled : Settles o.helpers (o.settlement (.ok output) .delete) (w.others o.helpers db)
      answer w' := hanswer
    cases hsettled with
    | committed => exact hok _
    | notOwned => exact hno _ _ hdb
    | failed e =>
      have hsame : (w.others o.helpers db).drop (o.settlement (.ok output) .delete) =
          w.others o.helpers db := by
        simp [TaskWorld.drop, hcompletes]
      rw [hsame]
      exact hno _ _ hdb
    | unanswered _ _ hnot => simp [hcompletes] at hnot
  · exact hok w

private theorem watches_runHandler : (runHandler o logger).Watches plainRequests := by
  have hexecutor : plainRequests.requests (.effect .runExecutor) := rfl
  have hending : plainRequests.requests (.effect .endingsSettled) := rfl
  refine (watches_await (unseen_perform hexecutor)).orElse fun e => ?_
  refine (unseen_perform hending).watches.bind fun ending => ?_
  cases ending with
  | none => exact Routine.watches_throw
  | some _ =>
    dsimp only
    split
    · refine (watches_withText fun text => ?_).bind fun _ => Routine.unseen_pure.watches
      exact (coversGuards_plainRequests.log _ _ _ _).watches
    · exact Routine.unseen_pure.watches

private theorem unseen_closeProgress {persist : Bool} :
    (Routine.tryCatch (await (perform (.closeProgress persist))) fun _ => pure () :
      Task Unit).Unseen plainRequests :=
  (watches_await (unseen_perform rfl)).guarded fun _ => Routine.unseen_pure

private theorem unseen_storeCompletion : (storeCompletion o startTime).Unseen plainRequests := by
  refine (unseen_perform rfl).bind fun now => ?_
  refine (coversGuards_plainRequests.callSpan _).bind fun _ => ?_
  refine (coversGuards_plainRequests.callSpan _).bind fun _ => ?_
  exact (unseen_perform rfl).bind fun _ => unseen_perform rfl

private theorem wp_settleCompletion {output : Option Json}
    {post : Except Thrown Unit → Locals → TaskWorld → Prop} (hok : ∀ w', post (.ok ()) s w')
    (herror : ∀ e w', Passes o.helpers w w' → post (.error e) s w') :
    (settleCompletion o output).wp (served o.helpers) post s w := by
  unfold settleCompletion
  rw [Routine.wp_bind]
  apply wp_settle_completed
  · exact hok
  · intro r w' hpasses
    cases r with
    | error e => exact herror e w' hpasses
    | ok settled =>
      cases settled with
      | false => exact herror _ w' hpasses
      | true => exact hok w'

private theorem wp_completeRun {continued : Bool} {output : Option Json}
    {post : Except Thrown (Option String) → Locals → TaskWorld → Prop}
    (hok : ∀ w', post (.ok none) s w')
    (herror : ∀ e w', Passes o.helpers w w' → post (.error e) s w') :
    (completeRun o startTime continued output).wp (served o.helpers) post s w := by
  have hstore : ∀ w₁, (storeCompletion o startTime >>= fun _ => pure none).wp (served o.helpers)
      post s w₁ := by
    intro w₁
    rw [Routine.wp_bind]
    apply wp_of_unseen unseen_storeCompletion
    intro _ w' _
    exact hok w'
  unfold completeRun
  rw [Routine.wp_bind]
  apply wp_of_unseen unseen_closeProgress
  intro _ w₁ hpasses
  cases continued with
  | true => exact hstore w₁
  | false =>
    simp only [Bool.not_false, if_true, Routine.wp_bind]
    apply wp_settleCompletion
    · intro w'
      rw [← Routine.wp_bind]
      exact hstore w'
    · intro e w' hpasses'
      exact herror e w' (hpasses.trans hpasses')

private theorem wp_suspendRun {waitId : String}
    {post : Except Thrown (Option String) → Locals → TaskWorld → Prop}
    (hok : ∀ w', post (.ok (some waitId)) { s with suspended := some waitId } w') :
    (suspendRun waitId).wp (served o.helpers) post s w := by
  unfold suspendRun
  rw [Routine.wp_bind, Routine.wp_modify]
  dsimp only
  rw [Routine.wp_bind]
  apply wp_of_unseen unseen_closeProgress
  intro _ w₁ _
  rw [Routine.wp_bind]
  apply wp_callSpan
  intro _ w₂ _
  rw [Routine.wp_bind]
  apply wp_callSpan
  intro _ w₃ _
  exact hok w₃

/-- An attempt that fails has left no trace of its fate yet. -/
private theorem wp_runAttempt {post : Except Thrown (Option String) → Locals → TaskWorld → Prop}
    (hok : ∀ a s' w', s'.caught = s.caught → post (.ok a) s' w')
    (herror : ∀ e s' w', s'.permanent = s.permanent → s'.retryAt = s.retryAt →
      s'.errorMessage = s.errorMessage → Passes o.helpers w w' → post (.error e) s' w') :
    (runAttempt o logger startTime).wp (served o.helpers) post s w := by
  unfold runAttempt assertPayloadEnvelope
  rw [Routine.wp_bind]
  split
  swap
  · exact herror _ s w rfl rfl rfl .refl
  rw [Routine.wp_pure]
  dsimp only
  rw [Routine.wp_bind]
  apply wp_of_watches watches_runHandler
  intro r w₁ hpasses
  cases r with
  | error e => exact herror e s w₁ rfl rfl rfl hpasses
  | ok output =>
    dsimp only
    rw [Routine.wp_bind]
    apply wp_plain rfl
    intro ending w₂ hpasses'
    cases ending with
    | none =>
      apply wp_completeRun
      · intro w'
        exact hok _ _ _ rfl
      · intro e w' h
        exact herror e _ _ rfl rfl rfl ((hpasses.trans hpasses').trans h)
    | some ending =>
      cases ending with
      | waiting waitId =>
        apply wp_suspendRun
        intro w'
        exact hok _ _ _ rfl
      | continued jobId =>
        dsimp only
        rw [Routine.wp_bind, Routine.wp_modify]
        apply wp_completeRun
        · intro w'
          exact hok _ _ _ rfl
        · intro e w' h
          exact herror e _ _ rfl rfl rfl ((hpasses.trans hpasses').trans h)

/-! ## The catch block -/

variable {n : ℕ} {name message : String} {row : RowMode}

/-- The attempt holds its lock and has tried nothing to settle its failure. -/
structure Unsettled (helpers : HelpersJob) (n : ℕ) (w : TaskWorld) : Prop where
  locked : (w.db.owned helpers).isSome
  hooks : w.hooks = n
  finished : w.finished = []
  recorded : w.recorded = false
  reported : w.reported = false
  dropped : w.dropped = false
  ended : w.ended = false
  traced : w.Traced helpers

theorem Unsettled.passes (h : Unsettled o.helpers n w) (hpasses : Passes o.helpers w w') :
    Unsettled o.helpers n w' where
  locked := hpasses.lock h.locked
  hooks := hpasses.hooks.trans h.hooks
  finished := hpasses.finished.trans h.finished
  recorded := by rw [← h.recorded, TaskWorld.recorded, TaskWorld.recorded, hpasses.settled]
  reported := by rw [← h.reported, TaskWorld.reported, TaskWorld.reported, hpasses.settled]
  dropped := hpasses.dropped.trans h.dropped
  ended := by rw [← h.ended, TaskWorld.ended, TaskWorld.ended, hpasses.settled]
  traced := hpasses.traced h.traced

/-- The attempt has tried to settle its failure, or had nothing to settle. -/
structure Tried (o : ExecuteTaskOptions) (error : Thrown) (n : ℕ) (w : TaskWorld) : Prop where
  hooks : w.hooks = n
  finished : w.finished = []
  recorded : o.runtime.jobOutcomes = true → w.recorded = !w.dropped
  reported : o.waited = true → w.reported = !w.dropped
  ended : error.isNonRetriable = false → w.ended = false
  traced : w.Traced o.helpers

theorem Tried.passes (h : Tried o error n w) (hpasses : Passes o.helpers w w') :
    Tried o error n w' where
  hooks := hpasses.hooks.trans h.hooks
  finished := hpasses.finished.trans h.finished
  recorded hon := by
    rw [hpasses.dropped, ← h.recorded hon, TaskWorld.recorded, TaskWorld.recorded, hpasses.settled]
  reported hon := by
    rw [hpasses.dropped, ← h.reported hon, TaskWorld.reported, TaskWorld.reported, hpasses.settled]
  ended hretriable := by rw [← h.ended hretriable, TaskWorld.ended, TaskWorld.ended, hpasses.settled]
  traced := hpasses.traced h.traced

private theorem dead_reportWaits {now : Time} {report : Report} {db : Db} {id : JobId} :
    (reportWaits now report db).dead id = db.dead id := by
  simp only [Db.dead, get?_reportWaits_jobs]
  cases db.jobs.get? id with
  | none => rfl
  | some job =>
    simp only [Option.map_some, Option.any_some]
    split <;> rfl

/-- A settling statement kills the job unless it keeps the row. -/
private theorem dead_settleJob {now : Time} {helpers : HelpersJob} {settle : Settle}
    {visible : WaitKey → Bool} {db db' : Db}
    (h : settleJob now helpers settle visible db = (db', true)) :
    db'.dead helpers.id = if settle.row = .keep then db.dead helpers.id else true := by
  obtain ⟨job, db₁, db₂, -, hrecord, hreport, rfl⟩ := settleJob_true h
  have hdead₁ : db₁.dead helpers.id = db.dead helpers.id := by
    obtain rfl | ⟨outcome, rfl⟩ := hrecord
    · rfl
    · simp [Db.dead]
  have hdead₂ : db₂.dead helpers.id = db.dead helpers.id := by
    obtain ⟨-, rfl⟩ | ⟨report, -, rfl⟩ := hreport
    · exact hdead₁
    · exact dead_reportWaits.trans hdead₁
  -- Neither the outcome nor the report to parents touches the attempts of the row.
  cases hrow : settle.row with
  | keep => simpa [settleRow] using hdead₂
  | exhaust =>
    simp only [Db.dead, get?_settleRow]
    cases db₂.jobs.get? helpers.id <;> simp [Job.live, Job.exhaust]
  | delete => simp [Db.dead, get?_settleRow]

private theorem ended_commit {settle : Settle} {db : Db} :
    (w.commit settle db).ended = (w.ended || decide (settle.row ≠ .keep)) := by
  simp [TaskWorld.ended, TaskWorld.commit]

private theorem traced_commit {now : Time} {helpers : HelpersJob} {settle : Settle}
    {visible : WaitKey → Bool} {db : Db} (h : w.Traced helpers)
    (hsettle : settleJob now helpers settle visible w.db = (db, true)) :
    (w.commit settle db).Traced helpers := by
  have hdead := dead_settleJob hsettle
  rw [TaskWorld.Traced] at h
  rw [TaskWorld.Traced, ended_commit]
  by_cases hkeep : settle.row = .keep
  · simpa [TaskWorld.commit, hkeep, h] using hdead
  · simpa [TaskWorld.commit, hkeep] using hdead

/-- A statement that settles the failure is on record with the row it left. -/
private theorem tried_commit {now : Time} {visible : WaitKey → Bool} {db : Db}
    (h : Unsettled o.helpers n w) (hrow : error.isNonRetriable = false → row = .keep)
    (hsettle : settleJob now o.helpers (o.settlement (.failed name message) row) visible w.db =
      (db, true)) :
    Tried o error n (w.commit (o.settlement (.failed name message) row) db) where
  hooks := h.hooks
  finished := h.finished
  recorded hon := by
    simp [TaskWorld.recorded, TaskWorld.commit, ExecuteTaskOptions.settlement, settledOutcome, hon,
      h.dropped]
  reported hon := by
    simp [TaskWorld.reported, TaskWorld.commit, ExecuteTaskOptions.settlement, hon, h.dropped]
  ended hretriable := by
    have hkept : (o.settlement (.failed name message) row).row = .keep := hrow hretriable
    simp [ended_commit, h.ended, hkept]
  traced := traced_commit h.traced hsettle

private theorem tried_drop (h : Unsettled o.helpers n w) :
    Tried o error n (w.drop (o.settlement (.failed name message) row)) := by
  have hcompletes : (o.settlement (.failed name message) row).completes = false := by
    cases o.runtime.jobOutcomes <;> cases hwaited : o.waited <;>
      simp [Settle.completes, ExecuteTaskOptions.settlement, settledOutcome, hwaited]
  simp only [TaskWorld.drop, hcompletes, Bool.false_eq_true, if_false]
  exact ⟨h.hooks, h.finished, fun _ => h.recorded, fun _ => h.reported, fun _ => h.ended, h.traced⟩

/-- Settling a failure under the lock succeeds or throws an `Error`. -/
private theorem wp_settle_failed {post : Except Thrown Bool → Locals → TaskWorld → Prop}
    (h : Unsettled o.helpers n w) (hrow : error.isNonRetriable = false → row = .keep)
    (hok : ∀ w', Tried o error n w' → post (.ok true) s w')
    (herror : ∀ e w', e.text.isSome → Tried o error n w' → post (.error e) s w') :
    (settle o (.failed name message) row).wp (served o.helpers) post s w := by
  unfold settle
  split
  · unfold await
    rw [Routine.wp_bind]
    rintro answer w' ⟨db, hlock, hanswer⟩
    have hdb : Unsettled o.helpers n (w.others o.helpers db) := h.passes (.others hlock)
    have hsettled : Settles o.helpers (o.settlement (.failed name message) row)
      (w.others o.helpers db) answer w' := hanswer
    cases hsettled with
    | committed _ _ _ hsettle => exact hok _ (tried_commit hdb hrow hsettle)
    | notOwned hnone =>
      have hlocked := hdb.locked
      simp [hnone] at hlocked
    | failed e htext => exact herror e _ htext (tried_drop hdb)
    | unanswered e htext _ _ _ _ hsettle => exact herror e _ htext (tried_commit hdb hrow hsettle)
  · rename_i hsettles
    simp only [ExecuteTaskOptions.settles, Bool.or_eq_true, not_or, Bool.not_eq_true] at hsettles
    refine hok w ⟨h.hooks, h.finished, fun hon => ?_, fun hon => ?_, fun _ => h.ended, h.traced⟩
    · simp [hon] at hsettles
    · simp [hon] at hsettles

private theorem unseen_closeFailedProgress :
    (closeFailedProgress o logger).Unseen plainRequests := by
  intro s
  refine .request rfl fun answer htext => ?_
  cases answer with
  | ok _ => exact .done ⟨rfl, (), rfl⟩
  | error e =>
    apply unseen_withText (htext e rfl)
    intro text
    exact coversGuards_plainRequests.log logger _ _ _

private theorem leavesLock_scheduleRetry {now runAt t : Time} {db db' : Db}
    (h : scheduleRetry now o.helpers runAt db = .ok (db', t)) : LeavesLock o.helpers db db' := by
  obtain ⟨job, hown, rfl⟩ := scheduleRetry_ok h
  obtain ⟨hrow, howns⟩ := owned_eq_some_iff.mp hown
  intro _
  have hrow' : (db.updateJob o.helpers.id (·.setRunAt (runAt - graphileBackoff job.attempts))).owned
      o.helpers = some (job.setRunAt (runAt - graphileBackoff job.attempts)) := by
    apply owned_eq_some_iff.mpr
    exact ⟨by simp [Table.get?_update, hrow], (owns_congr rfl).trans howns⟩
  exact Option.isSome_of_mem hrow'

private theorem dead_scheduleRetry {now runAt t : Time} {db db' : Db}
    (h : scheduleRetry now o.helpers runAt db = .ok (db', t)) :
    db'.dead o.helpers.id = db.dead o.helpers.id := by
  obtain ⟨job, hown, rfl⟩ := scheduleRetry_ok h
  simp only [Db.dead, Db.updateJob, Table.get?_update, if_true]
  cases db.jobs.get? o.helpers.id <;> rfl

private theorem wp_retryLater {post : Except Thrown Unit → Locals → TaskWorld → Prop}
    (hpost : ∀ r t w', Passes o.helpers w w' → post r { s with retryAt := t } w') :
    (retryLater error).wp (served o.helpers) post s w := by
  unfold retryLater
  split
  · unfold await
    simp only [Routine.wp_bind]
    rintro answer w' ⟨db, hlock, hanswer⟩
    have hscheduled : Schedules o.helpers _ (w.others o.helpers db) answer w' := hanswer
    have hothers : Passes o.helpers w (w.others o.helpers db) := .others hlock
    cases hscheduled with
    | scheduled now db' t h =>
      refine hpost _ (some t) _ (hothers.trans ⟨leavesLock_scheduleRetry h, rfl, rfl, rfl, rfl, ?_⟩)
      exact (dead_scheduleRetry h).trans
    | failed e => exact hpost _ s.retryAt _ hothers
  · exact hpost _ s.retryAt w .refl

private theorem wp_reportPermanentFailure {reported : Thrown} {durationMs : Time}
    {post : Except Thrown Unit → Locals → TaskWorld → Prop} (h : Unsettled o.helpers n w)
    (hpost : ∀ w', Unsettled o.helpers (n + 1) w' → post (.ok ()) s w') :
    (reportPermanentFailure o reported message durationMs).wp (served o.helpers) post s w := by
  unfold reportPermanentFailure
  rw [Routine.wp_bind]
  apply wp_observe
  intro w₁ hpasses
  have hhook : Unsettled o.helpers (n + 1) w₁ := by
    refine Unsettled.passes ?_ hpasses
    exact ⟨h.locked, congrArg (· + 1) h.hooks, h.finished, h.recorded, h.reported, h.dropped, h.ended,
      h.traced⟩
  dsimp only
  rw [Routine.wp_bind]
  apply wp_plain rfl
  intro _ w₂ hpasses₂
  apply wp_plain rfl
  intro _ w₃ hpasses₃
  exact hpost w₃ ((hhook.passes hpasses₂).passes hpasses₃)

private theorem wp_recordFailure {post : Except Thrown Unit → Locals → TaskWorld → Prop}
    (h : Unsettled o.helpers n w) (hrow : error.isNonRetriable = false → row = .keep)
    (hpost : ∀ w', Tried o error n w' → post (.ok ()) s w') :
    (recordFailure o logger (.failed name message) row).wp (served o.helpers) post s w := by
  unfold recordFailure
  rw [Routine.wp_tryCatch, Routine.wp_bind]
  apply wp_settle_failed h hrow
  · intro w' htried
    exact hpost w' htried
  · intro e w' htext htried
    apply wp_of_unseen
      (unseen_withText htext fun _ => coversGuards_plainRequests.log logger _ _ _)
    intro _ w'' hpasses
    exact hpost w'' (htried.passes hpasses)

private theorem wp_retainJob {post : Except Thrown Unit → Locals → TaskWorld → Prop}
    (h : Unsettled o.helpers n w) (hnon : error.isNonRetriable = true)
    (hpost : ∀ r w', Tried o error n w' → post r s w') :
    (retainJob o (.failed name message)).wp (served o.helpers) post s w := by
  unfold retainJob
  rw [Routine.wp_bind]
  have hrow : error.isNonRetriable = false → RowMode.exhaust = .keep := by simp [hnon]
  apply wp_settle_failed h hrow
  · intro w' htried
    exact hpost _ w' htried
  · intro e w' _ htried
    exact hpost _ w' htried

/-- A retryable failure settles nothing and is thrown on. -/
private theorem wp_settleFailure_retryable
    {post : Except Thrown (Option String) → Locals → TaskWorld → Prop}
    (h : Unsettled o.helpers n w) (hretriable : error.isNonRetriable = false)
    (hpost : ∀ e t w', Unsettled o.helpers n w' → post (.error e) { s with retryAt := t } w') :
    (settleFailure o logger error (.failed name message) false).wp (served o.helpers) post s w := by
  simp only [settleFailure, hretriable, Bool.not_false, if_true, Bool.false_and, Bool.false_eq_true,
    if_false, Routine.wp_bind]
  apply wp_retryLater
  intro r t w' hpasses
  cases r with
  | ok _ => exact hpost _ t w' (h.passes hpasses)
  | error e => exact hpost e t w' (h.passes hpasses)

/-- A permanent failure is acknowledged on discard and thrown otherwise. -/
private theorem wp_settleFailure_permanent
    {post : Except Thrown (Option String) → Locals → TaskWorld → Prop}
    (h : Unsettled o.helpers n w)
    (hdiscard : error.isNonRetriable = true → o.runtime.discard = true → ∀ w', Tried o error n w' →
      post (.ok none) s w')
    (hthrow : (error.isNonRetriable && o.runtime.discard) = false → ∀ e w', Tried o error n w' →
      post (.error e) s w') :
    (settleFailure o logger error (.failed name message) true).wp (served o.helpers) post s w := by
  simp only [settleFailure, Bool.not_true, Bool.false_eq_true, if_false, if_true]
  cases hnon : error.isNonRetriable with
  -- The last attempt: the row is out of attempts and stays.
  | false =>
    have hkeep : (error.isNonRetriable && o.runtime.discard) = false := by simp [hnon]
    simp only [Bool.false_and, Bool.false_eq_true, if_false, Routine.wp_bind]
    apply wp_recordFailure h fun _ => rfl
    intro w' htried
    exact hthrow hkeep _ w' htried
  | true =>
    cases hdisc : o.runtime.discard with
    | true =>
      simp only [Bool.not_true, Bool.and_false, Bool.false_eq_true, if_false, if_true,
        Routine.wp_bind]
      have hrow : error.isNonRetriable = false → RowMode.delete = .keep := by simp [hnon]
      apply wp_recordFailure h hrow
      intro w' htried
      exact hdiscard hnon hdisc w' htried
    | false =>
      have hkeep : (error.isNonRetriable && o.runtime.discard) = false := by simp [hdisc]
      simp only [Bool.not_false, Bool.and_true, if_true, Routine.wp_bind]
      apply wp_retainJob h hnon
      intro r w' htried
      cases r with
      | ok _ => exact hthrow hkeep _ w' htried
      | error e => exact hthrow hkeep e w' htried

/-- What the `catch` block leaves to the `finally` block and to Graphile. -/
structure Treated (o : ExecuteTaskOptions) (error : Thrown) (r : Except Thrown (Option String))
    (s : Locals) (w : TaskWorld) : Prop where
  caught : s.caught = some error
  status : s.status = .failed
  message : s.errorMessage.isSome = error.reported.describe.isSome
  permanent : s.permanent = o.permanent error
  retryAt : o.permanent error = true → s.retryAt = none
  hooks : w.hooks = if o.permanent error then 1 else 0
  finished : w.finished = []
  recorded : o.runtime.jobOutcomes = true → w.recorded = (o.permanent error && !w.dropped)
  reported : o.waited = true → w.reported = (o.permanent error && !w.dropped)
  dropped : o.permanent error = false → w.dropped = false
  ended : (error.reported.describe.isSome && error.isNonRetriable) = false → w.ended = false
  traced : w.Traced o.helpers
  result : if o.discards error then r = .ok none else ∃ e, r = .error e

theorem Treated.passes {r : Except Thrown (Option String)} (h : Treated o error r s w)
    (hpasses : Passes o.helpers w w') : Treated o error r s w' where
  caught := h.caught
  status := h.status
  message := h.message
  permanent := h.permanent
  retryAt := h.retryAt
  hooks := hpasses.hooks.trans h.hooks
  finished := hpasses.finished.trans h.finished
  recorded hon := by
    rw [hpasses.dropped, ← h.recorded hon, TaskWorld.recorded, TaskWorld.recorded, hpasses.settled]
  reported hon := by
    rw [hpasses.dropped, ← h.reported hon, TaskWorld.reported, TaskWorld.reported, hpasses.settled]
  dropped hp := hpasses.dropped.trans (h.dropped hp)
  ended hnot := by rw [← h.ended hnot, TaskWorld.ended, TaskWorld.ended, hpasses.settled]
  traced := hpasses.traced h.traced
  result := h.result

/-- A failure that is not permanent settles nothing. -/
private theorem treated_retryable {e : Thrown} (hcaught : s.caught = some error)
    (hstatus : s.status = .failed)
    (hmessage : s.errorMessage.isSome = error.reported.describe.isSome) (hs : s.permanent = false)
    (hp : o.permanent error = false)
    (h : Unsettled o.helpers 0 w) : Treated o error (.error e) s w where
  caught := hcaught
  status := hstatus
  message := hmessage
  permanent := hs.trans hp.symm
  retryAt htrue := by simp [hp] at htrue
  hooks := by simp [h.hooks, hp]
  finished := h.finished
  recorded _ := by simp [h.recorded, hp]
  reported _ := by simp [h.reported, hp]
  dropped _ := h.dropped
  ended _ := h.ended
  traced := h.traced
  result := by
    have hkept : o.discards error = false := by
      rw [ExecuteTaskOptions.discards]
      rw [ExecuteTaskOptions.permanent] at hp
      cases hd : error.reported.describe.isSome <;> cases hn : error.isNonRetriable <;>
        simp_all
    simp [hkept]

private theorem treated_permanent {r : Except Thrown (Option String)}
    (hcaught : s.caught = some error) (hstatus : s.status = .failed)
    (hmessage : s.errorMessage.isSome = error.reported.describe.isSome) (hs : s.permanent = true)
    (hretry : s.retryAt = none) (hp : o.permanent error = true) (h : Tried o error 1 w)
    (hresult : if o.discards error then r = .ok none else ∃ e, r = .error e) :
    Treated o error r s w where
  caught := hcaught
  status := hstatus
  message := hmessage
  permanent := hs.trans hp.symm
  retryAt _ := hretry
  hooks := by simp [h.hooks, hp]
  finished := h.finished
  recorded hon := by simp [h.recorded hon, hp]
  reported hon := by simp [h.reported hon, hp]
  dropped hfalse := by simp [hp] at hfalse
  ended hnot := by
    have hread : error.reported.describe.isSome = true := by
      simp only [ExecuteTaskOptions.permanent, Bool.and_eq_true] at hp
      exact hp.1
    apply h.ended
    simpa [hread] using hnot
  traced := h.traced
  result := hresult

private theorem wp_failAttempt (h : Unsettled o.helpers 0 w) (hpermanent : s.permanent = false)
    (hretry : s.retryAt = none) (hmessage : s.errorMessage = none)
    {post : Except Thrown (Option String) → Locals → TaskWorld → Prop}
    (hpost : ∀ r s' w', Treated o error r s' w' → post r s' w') :
    (failAttempt o logger startTime error).wp (served o.helpers) post s w := by
  unfold failAttempt
  rw [Routine.wp_bind, Routine.wp_modify]
  dsimp only
  rw [Routine.wp_bind]
  apply wp_of_unseen unseen_closeFailedProgress
  intro _ w₁ hpasses₁
  dsimp only
  rw [Routine.wp_bind]
  apply wp_plain rfl
  intro now w₂ hpasses₂
  have h₂ := (h.passes hpasses₁).passes hpasses₂
  cases hdescribe : error.reported.describe with
  -- String() throws on the error, before there is a verdict.
  | none =>
    have hp : o.permanent error = false := by simp [ExecuteTaskOptions.permanent, hdescribe]
    exact hpost _ _ _ (treated_retryable rfl rfl (by simp [hmessage, hdescribe]) hpermanent hp h₂)
  | some described =>
    obtain ⟨errorType, message⟩ := described
    dsimp only
    rw [Routine.wp_bind, Routine.wp_modify]
    dsimp only
    rw [Routine.wp_bind]
    apply wp_callSpan
    intro _ w₃ hpasses₃
    dsimp only
    rw [Routine.wp_bind]
    apply wp_callSpan
    intro _ w₄ hpasses₄
    dsimp only
    rw [Routine.wp_bind]
    apply wp_callSpan
    intro _ w₅ hpasses₅
    dsimp only
    rw [Routine.wp_bind, Routine.wp_modify]
    dsimp only
    have h₅ := ((h₂.passes hpasses₃).passes hpasses₄).passes hpasses₅
    have hread : (some message).isSome = error.reported.describe.isSome := by
      rw [hdescribe]
      rfl
    have hp : o.permanent error = (error.isNonRetriable || o.lastAttempt) := by
      simp [ExecuteTaskOptions.permanent, hdescribe]
    have hd : o.discards error = (error.isNonRetriable && o.runtime.discard) := by
      simp [ExecuteTaskOptions.discards, hdescribe]
    -- Everything below follows this one verdict, which reads the error and the claim.
    cases hverdict : (error.isNonRetriable || o.lastAttempt) with
    | false =>
      have hretriable := (Bool.or_eq_false_iff.mp hverdict).1
      simp only [Bool.false_eq_true, if_false]
      apply wp_settleFailure_retryable h₅ hretriable
      intro e t w' h'
      exact hpost _ _ _ (treated_retryable rfl rfl hread rfl (hp.trans hverdict) h')
    | true =>
      simp only [if_true, Routine.wp_bind]
      apply wp_reportPermanentFailure h₅
      intro w₆ h₆
      apply wp_settleFailure_permanent h₆
      · intro hnon hdisc w' htried
        refine hpost _ _ _ (treated_permanent rfl rfl hread rfl hretry (hp.trans hverdict) htried ?_)
        simp [hd, hnon, hdisc]
      · intro hkeep e w' htried
        refine hpost _ _ _ (treated_permanent rfl rfl hread rfl hretry (hp.trans hverdict) htried ?_)
        simp [hd, hkeep]

/-! ## The task -/

/-- What `executeTask` has made of a caught error when it settles. -/
structure Judged (o : ExecuteTaskOptions) (error : Thrown) (acknowledged : Prop) (w : TaskWorld) :
    Prop where
  hooks : w.hooks = if o.permanent error then 1 else 0
  finished : ∃ event, w.finished = [event] ∧ event.status = .failed ∧
    event.permanentlyFailed = o.permanent error ∧ (o.permanent error = true → event.retryAt = none)
  recorded : o.runtime.jobOutcomes = true → w.recorded = (o.permanent error && !w.dropped)
  reported : o.waited = true → w.reported = (o.permanent error && !w.dropped)
  dropped : o.permanent error = false → w.dropped = false
  ended : (error.reported.describe.isSome && error.isNonRetriable) = false → w.ended = false
  traced : w.Traced o.helpers
  result : acknowledged ↔ (o.discards error && error.slices) = true

theorem Judged.passes {acknowledged : Prop} (h : Judged o error acknowledged w)
    (hpasses : Passes o.helpers w w') : Judged o error acknowledged w' where
  hooks := hpasses.hooks.trans h.hooks
  finished := by rw [hpasses.finished]; exact h.finished
  recorded hon := by
    rw [hpasses.dropped, ← h.recorded hon, TaskWorld.recorded, TaskWorld.recorded, hpasses.settled]
  reported hon := by
    rw [hpasses.dropped, ← h.reported hon, TaskWorld.reported, TaskWorld.reported, hpasses.settled]
  dropped hp := hpasses.dropped.trans (h.dropped hp)
  ended hnot := by rw [← h.ended hnot, TaskWorld.ended, TaskWorld.ended, hpasses.settled]
  traced := hpasses.traced h.traced
  result := h.result

/-- Only an error that is read has a message to cut, and only a discarded one would be returned on. -/
private theorem Treated.uncuttable {r : Except Thrown (Option String)} (h : Treated o error r s w) :
    (s.uncuttable = false ∧ r = .ok none) ↔ (o.discards error && error.slices) = true := by
  have hresult := h.result
  cases hd : o.discards error with
  | false =>
    simp only [hd, Bool.false_eq_true, if_false] at hresult
    obtain ⟨e, rfl⟩ := hresult
    simp
  | true =>
    have hdiscards := hd
    simp only [ExecuteTaskOptions.discards, Bool.and_eq_true] at hdiscards
    have hreported : error.reported = error := by
      cases error <;> first | rfl | cases hdiscards.1.2
    have hread := hdiscards.1.1
    rw [hreported] at hread
    simp only [hd, if_true] at hresult
    simp [Locals.uncuttable, h.message, h.caught, hreported, hread, hresult]

private theorem Treated.judged {r r' : Except Thrown (Option String)} {durationMs : Time}
    (h : Treated o error r s w) (hr' : r' = .ok none ↔ s.uncuttable = false ∧ r = .ok none)
    (hpasses : Passes o.helpers (w.observe (.onJobFinished (o.finishedEvent s durationMs))) w') :
    Judged o error (r' = .ok none) w' := by
  refine Judged.passes ?_ hpasses
  refine ⟨h.hooks, ⟨o.finishedEvent s durationMs, ?_, h.status, ?_, h.retryAt⟩, h.recorded,
    h.reported, h.dropped, h.ended, h.traced, hr'.trans h.uncuttable⟩
  · simp [TaskWorld.observe, h.finished]
  · simp [ExecuteTaskOptions.finishedEvent, h.status, h.permanent]

private theorem wp_finishAttempt {post : Except Thrown Unit → Locals → TaskWorld → Prop}
    (hpost : ∀ durationMs w', Passes o.helpers
      (w.observe (.onJobFinished (o.finishedEvent s durationMs))) w' →
      post (if s.uncuttable then .error .noSlice else .ok ()) s w') :
    (finishAttempt o logger startTime).wp (served o.helpers) post s w := by
  unfold finishAttempt
  rw [Routine.wp_bind]
  apply wp_plain rfl
  intro _ w₁ hpasses₁
  dsimp only
  rw [Routine.wp_bind]
  apply wp_plain rfl
  intro now w₂ hpasses₂
  dsimp only
  rw [Routine.wp_bind, Routine.wp_get]
  dsimp only
  rw [Routine.wp_bind]
  apply wp_observe_onJobFinished
  intro w₃ hpasses₃
  have hpasses := (hpasses₁.trans hpasses₂).observe (.onJobFinished (o.finishedEvent s (now - startTime)))
  cases huncuttable : s.uncuttable with
  | true =>
    rw [huncuttable] at hpost
    exact hpost _ w₃ (hpasses.trans hpasses₃)
  | false =>
    rw [huncuttable] at hpost
    apply wp_of_unseen (coversGuards_plainRequests.log logger _ _ _)
    intro _ w₄ hpasses₄
    exact hpost _ w₄ ((hpasses.trans hpasses₃).trans hpasses₄)

/-- The three blocks: an error that the `catch` block caught is judged. -/
private theorem wp_blocks (h : Unsettled o.helpers 0 w) (hcaught : s.caught = none)
    (hpermanent : s.permanent = false) (hretry : s.retryAt = none) (hmessage : s.errorMessage = none) :
    (Routine.tryFinally
      (Routine.tryCatch (runAttempt o logger startTime) (failAttempt o logger startTime))
      (finishAttempt o logger startTime)).wp (served o.helpers)
      (fun r s' w' => ∀ error, s'.caught = some error → Judged o error (r = .ok none) w') s w := by
  rw [Routine.wp_tryFinally, Routine.wp_tryCatch]
  apply wp_runAttempt
  · intro a s' w' hsame
    apply wp_finishAttempt
    intro _ w'' _
    have hnone : ∀ error, s'.caught ≠ some error := by
      intro error hsome
      rw [hsame, hcaught] at hsome
      cases hsome
    cases s'.uncuttable <;> exact fun error hsome => absurd hsome (hnone error)
  · intro e s' w₁ hp hr hm hpasses
    apply wp_failAttempt (h.passes hpasses) (hp.trans hpermanent) (hr.trans hretry) (hm.trans hmessage)
    intro r s'' w₂ htreated
    apply wp_finishAttempt
    intro durationMs w₃ hpasses'
    have hjudged : ∀ {r' : Except Thrown (Option String)},
        (r' = .ok none ↔ s''.uncuttable = false ∧ r = .ok none) →
        ∀ error, s''.caught = some error → Judged o error (r' = .ok none) w₃ := by
      intro r' hr' error hsome
      rw [htreated.caught] at hsome
      cases hsome
      exact htreated.judged hr' hpasses'
    cases huncuttable : s''.uncuttable with
    | true => exact hjudged (by simp [huncuttable])
    | false => exact hjudged (by simp [huncuttable])

private theorem unseen_linkProducer : (linkProducer o).Unseen plainRequests := by
  unfold linkProducer
  split
  · exact Routine.unseen_pure
  · refine (coversGuards_plainRequests.callSpan _).bind fun _ => ?_
    exact coversGuards_plainRequests.callSpan _

private theorem wp_taskBody (h : Unsettled o.helpers 0 w) :
    (taskBody o).wp (served o.helpers)
      (fun r s' w' => ∀ error, s'.caught = some error → Judged o error (r = .ok none) w')
      .initial w := by
  unfold taskBody
  rw [Routine.wp_bind]
  apply wp_plain rfl
  intro startTime w₁ hpasses₁
  dsimp only
  rw [Routine.wp_bind]
  apply wp_callSpan
  intro _ w₂ hpasses₂
  dsimp only
  rw [Routine.wp_bind]
  apply wp_of_unseen unseen_linkProducer
  intro _ w₃ hpasses₃
  dsimp only
  rw [Routine.wp_bind]
  apply wp_of_unseen (coversGuards_plainRequests.jobLogger _)
  intro logger w₄ hpasses₄
  have h₂ := (h.passes hpasses₁).passes hpasses₂
  exact wp_blocks ((h₂.passes hpasses₃).passes hpasses₄) rfl rfl rfl rfl

end BetterGraphileWorker
