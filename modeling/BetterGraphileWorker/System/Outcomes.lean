-- SUMMARY: Everything one step can do to the existence of job rows and to the outcome table.
import BetterGraphileWorker.Database.Outcomes
import BetterGraphileWorker.System.WellFormed

/-!
# Rows and outcomes

Rows disappear in three ways: Graphile completes a job, an attempt settles with `delete`,
and a continuation retires its row with an outcome. The last two record what they end.
-/

namespace BetterGraphileWorker

/-- The row with the given id is still there, created when it was. -/
def KeepsRow (db db' : Db) (id : JobId) : Prop :=
  ∀ job, db.jobs.get? id = some job →
    ∃ job', db'.jobs.get? id = some job' ∧ job'.createdAt = job.createdAt

/-- A settled row: a report may have woken it. -/
def SettledRow (job : Job) (row : RowMode) : Option Job → Prop
  | none => row = .delete
  | some job' => ∃ t, row = .exhaust ∧ job' = (job.setRunAt t).exhaust ∨
      row = .keep ∧ job' = job.setRunAt t

inductive OutcomeChange (s : State) (e : Event) (r : Reply) (s' : State) : Prop where
  | kept (h : Keeps s.db s'.db)
  | completed {pool : PoolId} {id : JobId} (he : e = .completeJob pool id)
      (hrow : s'.db.jobs.get? id = none) (hrows : ∀ id', id' ≠ id → KeepsRow s.db s'.db id')
      (houtcomes : s'.db.outcomes = s.db.outcomes)
  | settled {now : Time} {k : ℕ} {settle : Settle} {visible : WaitKey → Bool} {a : Attempt}
      {job : Job} (he : e = .settle now k settle visible) (hr : r = .done)
      (ha : s.attempts.get? k = some a) (hown : s.db.owned a.job = some job)
      (hrow : SettledRow job settle.row (s'.db.jobs.get? a.job.id))
      (hrows : ∀ id', id' ≠ a.job.id → KeepsRow s.db s'.db id')
      (houtcomes : s'.db.outcomes = match settle.outcome with
        | none => s.db.outcomes
        | some outcome => (recordOutcome now a.job.id job outcome s.db).outcomes)
  | continued {id : JobId} {k : ℕ} {now : Time} {job : Job} {runAt : Option Time}
      {traceparent : Option String} {progress : Option Json} {a : Attempt}
      (he : e = .continueCommit id) (hr : r = .continued s.db.nextId)
      (htx : s.txs.get? id = some ⟨k, now, .continuing job runAt traceparent progress⟩)
      (ha : s.attempts.get? k = some a) (hid : a.job.id = id)
      (hbefore : s.db.jobs.get? id = some job) (houtcome : a.jobOutcomes = true)
      (hrow : s'.db.jobs.get? id = none) (hrows : ∀ id', id' ≠ id → KeepsRow s.db s'.db id')
      (houtcomes : s'.db.outcomes =
        (recordOutcome now id job.retired (.continued s.db.nextId) s.db).outcomes)

theorem KeepsRow.refl (db : Db) (id : JobId) : KeepsRow db db id := fun job hrow => ⟨job, hrow, rfl⟩

theorem Keeps.row {db db' : Db} (h : Keeps db db') (id : JobId) : KeepsRow db db' id := h.rows id

@[simp] theorem completeJob_outcomes {pool : PoolId} {id : JobId} {db : Db} :
    (completeJob pool id db).outcomes = db.outcomes := by
  unfold completeJob; split <;> rfl

@[simp] theorem Job.retired_createdAt {job : Job} : job.retired.createdAt = job.createdAt := by
  unfold Job.retired; split <;> rfl

namespace State

variable {s s' : State} {r : Reply} {e : Event} {k : ℕ} {id : JobId} {now : Time}

/-- What a statement that settles its row leaves of it, and in the outcome table. -/
theorem settled_outcome {settle : Settle} {visible : WaitKey → Bool}
    (h : s.settle now k settle visible = some (s', .done)) :
    ∃ a job, s.attempts.get? k = some a ∧ s.db.owned a.job = some job ∧
      SettledRow job settle.row (s'.db.jobs.get? a.job.id) ∧
      (∀ id', id' ≠ a.job.id → KeepsRow s.db s'.db id') ∧
      s'.db.outcomes = match settle.outcome with
        | none => s.db.outcomes
        | some outcome => (recordOutcome now a.job.id job outcome s.db).outcomes := by
  obtain ⟨a, ha, -, -, ⟨-, -, hr⟩ | ⟨db, hsettle, rfl, -, -⟩⟩ := settle_cases h
  · cases hr
  obtain ⟨job, db₁, db₂, hown, hdb₁, hdb₂, rfl⟩ := settleJob_true hsettle
  have houtcomes := settleJob_outcomes now settle visible hown
  rw [hsettle] at houtcomes
  have hjobs₁ : db₁.jobs = s.db.jobs := by
    rcases hdb₁ with rfl | ⟨outcome, rfl⟩ <;> rfl
  -- A report may wake rows, the settled one among them.
  have hmoved : ∀ i, ∃ f : Time → Time, db₂.jobs.get? i =
      (s.db.jobs.get? i).map fun row => row.setRunAt (f row.runAt) := by
    intro i
    rcases hdb₂ with ⟨-, rfl⟩ | ⟨report, -, rfl⟩
    · refine ⟨id, ?_⟩
      rw [hjobs₁]
      cases s.db.jobs.get? i <;> rfl
    · cases hwake : db₁.wakesParent (db₁.reported (childReport a.job.id report visible)) i with
      | false =>
        refine ⟨id, ?_⟩
        rw [get?_reportWaits_jobs, hjobs₁, hwake]
        cases s.db.jobs.get? i <;> rfl
      | true =>
        refine ⟨fun t => min t now, ?_⟩
        rw [get?_reportWaits_jobs, hjobs₁, hwake]
        cases s.db.jobs.get? i <;> rfl
  obtain ⟨hrow, -⟩ := owned_eq_some_iff.mp hown
  refine ⟨a, job, ha, hown, ?_, ?_, houtcomes⟩
  · obtain ⟨f, hf⟩ := hmoved a.job.id
    rw [get?_settleRow, hf, hrow]
    cases settle.row with
    | delete => simp [SettledRow]
    | exhaust => simp only [if_true, Option.map_some]; exact ⟨_, .inl ⟨rfl, rfl⟩⟩
    | keep => exact ⟨_, .inr ⟨rfl, rfl⟩⟩
  · intro i hi row hget
    obtain ⟨f, hf⟩ := hmoved i
    refine ⟨row.setRunAt (f row.runAt), ?_, rfl⟩
    rw [get?_settleRow, hf, hget]
    cases settle.row <;> simp [hi]

/-- What a continuation leaves of its row, and in the outcome table. -/
theorem continued_outcome (hwf : Wf s) {next : JobId} {job : Job} {runAt : Option Time}
    {traceparent : Option String} {progress : Option Json} {a : Attempt}
    (h : s.continueCommit id = some (s', .continued next))
    (htx : s.txs.get? id = some ⟨k, now, .continuing job runAt traceparent progress⟩)
    (ha : s.attempts.get? k = some a) :
    next = s.db.nextId ∧ a.job.id = id ∧ s.db.jobs.get? id = some job ∧
      s'.db.jobs.get? id = (if a.jobOutcomes then none else some job.retired) ∧
      (∀ id', id' ≠ id → KeepsRow s.db s'.db id') ∧
      s'.db.outcomes = if a.jobOutcomes then
        (recordOutcome now id job.retired (.continued next) s.db).outcomes else s.db.outcomes := by
  obtain ⟨k', now', job', runAt', traceparent', progress', a', htx', ha', -, ⟨-, hr⟩ |
    ⟨db, next', hok, hr, rfl⟩⟩ := continueCommit_cases h
  · cases hr
  cases hr
  rw [htx] at htx'
  cases htx'
  obtain rfl : a' = a := Option.some.inj (ha'.symm.trans ha)
  obtain ⟨hid, row, hrow, hown⟩ := owned_of_tx hwf htx ha
  obtain rfl : job = row := by
    obtain ⟨a₀, row', -, -, hrow', -, -, hstage⟩ := hwf.tx id _ htx
    obtain rfl : row' = row := by simpa [hrow] using hrow'.symm
    exact hstage.1
  have houtcomes := continueJob_outcomes hwf.idsBelow hwf.keysUnique hown hok
  obtain ⟨rfl, -, -, hrows, -⟩ := continue_tables hwf htx ha hok
  have hnew : ∀ i row', s.db.jobs.get? i = some row' → i ≠ s.db.nextId :=
    fun i row' hget hi => absurd (hi ▸ hwf.idsBelow _ _ hget) (lt_irrefl _)
  refine ⟨rfl, hid, hrow, ?_, ?_, hid ▸ houtcomes⟩
  · rw [hrows, if_neg (hnew id job hrow), if_pos rfl]
  · intro i hi row' hget
    refine ⟨row', ?_, rfl⟩
    rw [hrows, if_neg (hnew i row' hget), if_neg hi, hget]

private theorem outcome_settle {settle : Settle} {visible : WaitKey → Bool}
    (h : s.settle now k settle visible = some (s', r)) :
    OutcomeChange s (.settle now k settle visible) r s' := by
  obtain ⟨a, -, -, -, ⟨-, rfl, -⟩ | ⟨db, -, -, rfl, -⟩⟩ := settle_cases h
  · exact .kept (.refl _)
  · obtain ⟨a, job, ha, hown, hrow, hrows, houtcomes⟩ := settled_outcome h
    exact .settled rfl rfl ha hown hrow hrows houtcomes

private theorem outcome_continueCommit (hwf : Wf s) (h : s.continueCommit id = some (s', r)) :
    OutcomeChange s (.continueCommit id) r s' := by
  obtain ⟨k, now, job, runAt, traceparent, progress, a, htx, ha, -, ⟨rfl, -⟩ |
    ⟨db, next, -, rfl, -⟩⟩ := continueCommit_cases h
  · exact .kept (.refl _)
  obtain ⟨rfl, hid, hrow, hself, hother, houtcomes⟩ := continued_outcome hwf h htx ha
  cases hout : a.jobOutcomes with
  | true =>
    rw [hout] at houtcomes hself
    exact .continued rfl rfl htx ha hid hrow hout hself hother houtcomes
  -- Without outcomes the row stays, and only its attempts are spent.
  | false =>
    rw [hout] at houtcomes hself
    refine .kept ⟨fun i row' hget => ?_, houtcomes⟩
    by_cases hi : i = id
    · subst hi
      obtain rfl : row' = job := by simpa [hrow] using hget.symm
      exact ⟨row'.retired, hself, Job.retired_createdAt⟩
    · exact hother i hi row' hget

/-- Every step keeps rows and outcomes, or ends one job in one of the listed ways. -/
theorem outcome_change (hwf : Wf s) (h : s.exec e = some (s', r)) : OutcomeChange s e r s' := by
  cases e with
  | settle now k settle visible => exact outcome_settle h
  | continueCommit id => exact outcome_continueCommit hwf h
  | completeJob pool id =>
    obtain ⟨-, rfl⟩ := completeJob_cases h
    refine .completed rfl ?_ ?_ completeJob_outcomes
    · rw [get?_completeJob, if_pos rfl]
    · intro i hi job hrow
      exact ⟨job, by rw [get?_completeJob, if_neg hi, hrow], rfl⟩
  | tick d | sweepOrphans =>
    simp only [exec, Option.some.injEq, Prod.mk.injEq] at h
    obtain ⟨rfl, -⟩ := h
    exact .kept (.of_same rfl rfl)
  | addJob now spec =>
    obtain ⟨-, rfl⟩ := addJob_cases h
    exact .kept (.addJob now spec hwf.idsBelow)
  | claim now pool id jobOutcomes =>
    obtain ⟨job, -, -, -, -, -, rfl⟩ := claim_cases h
    have hlock : Keeps s.db (s.db.updateJob id (·.lockFor ⟨pool, now⟩)) :=
      .updateJob id fun _ => rfl
    exact .kept (hlock.trans (.of_same rfl rfl))
  | failJob now pool id error =>
    obtain ⟨-, rfl⟩ := failJob_cases h
    exact .kept .failJob
  | release now pools =>
    obtain ⟨-, rfl⟩ := release_cases h
    exact .kept .releaseJobsLockedBy
  | checkpoint k stepId output resolved =>
    obtain ⟨a, -, -, -, -, ⟨rfl, -⟩ | ⟨db, hok, -, rfl⟩⟩ := checkpoint_cases h
    · exact .kept (.refl _)
    · exact .kept (.patchEnvelope hok)
  | setProgress k value =>
    obtain ⟨a, -, rfl⟩ := setProgress_cases h
    exact .kept (.refl _)
  | writeProgress k =>
    obtain ⟨a, -, -, ⟨rfl, -⟩ | ⟨value, db, hok, rfl, -⟩⟩ := writeProgress_cases h
    · exact .kept (.refl _)
    · exact .kept (.patchEnvelope hok)
  | retry now k runAt =>
    obtain ⟨a, -, -, -, ⟨-, rfl, -⟩ | ⟨job, -, -, rfl⟩⟩ := retry_cases h
    · exact .kept (.refl _)
    · exact .kept (.updateJob _ fun _ => rfl)
  | waitBegin now k call =>
    obtain ⟨a, -, -, -, -, -, ⟨rfl, -⟩ | ⟨job, -, -, -, rfl⟩⟩ := waitBegin_cases h
    · exact .kept (.refl _)
    · exact .kept (.refl _)
  | waitLookup id =>
    obtain ⟨k, now, call, suspended, -, -, rfl⟩ := waitLookup_cases h
    exact .kept (.refl _)
  | waitCommit id prepared =>
    obtain ⟨k, now, call, suspended, found, a, -, -, -, ⟨rfl, -⟩ | ⟨db, entered, hok, -, rfl⟩⟩ :=
      waitCommit_cases h
    · exact .kept (.refl _)
    · exact .kept (.enterWait hwf.idsBelow hok)
  | continueBegin now k runAt traceparent =>
    obtain ⟨a, -, -, -, -, ⟨rfl, -⟩ | ⟨-, ⟨-, -, rfl⟩ | ⟨job, -, -, rfl⟩⟩⟩ := continueBegin_cases h
    · exact .kept (.refl _)
    · exact .kept (.refl _)
    · exact .kept (.refl _)
  | rollback id =>
    obtain ⟨tx, -, rfl⟩ := rollback_cases h
    exact .kept (.refl _)
  | sweepLost now seen skipped =>
    obtain ⟨-, rfl⟩ := sweepLost_cases h
    exact .kept .reportWaits
  | sweepWake now =>
    obtain ⟨-, rfl⟩ := sweepWake_cases h
    exact .kept .sweepWake

/-- A row was there before, created when it was, or its id is new. -/
theorem row_created (hwf : Wf s) (h : s.exec e = some (s', r)) {job' : Job}
    (hrow' : s'.db.jobs.get? id = some job') :
    (∃ job, s.db.jobs.get? id = some job ∧ job'.createdAt = job.createdAt) ∨
      s.db.jobs.get? id = none ∧ s.db.nextId ≤ id := by
  cases hrow : s.db.jobs.get? id with
  | none =>
    refine .inr ⟨rfl, ?_⟩
    have hchange := row_change hwf h id
    rw [hrow, hrow'] at hchange
    cases hchange with
    | inserted job hid => exact hid
    | continuation he htx hid => exact hid ▸ le_refl _
  | some job =>
    -- A row that was there and still is there is a kept one or the settled one.
    have hkeeps : KeepsRow s.db s'.db id → ∃ job₀, some job = some job₀ ∧
        job'.createdAt = job₀.createdAt := by
      intro hkeeps
      obtain ⟨job'', hrow'', hcreated⟩ := hkeeps job hrow
      obtain rfl : job'' = job' := Option.some.inj (hrow''.symm.trans hrow')
      exact ⟨job, rfl, hcreated⟩
    refine .inl ?_
    cases outcome_change hwf h with
    | kept hk => exact hkeeps (hk.row id)
    | @completed pool id' he hgone hrows houtcomes =>
      apply hkeeps
      apply hrows
      rintro rfl
      rw [hgone] at hrow'
      cases hrow'
    | @continued id' k now job₀ runAt traceparent progress a he hr htx ha hid hbefore ho hgone hrows =>
      apply hkeeps
      apply hrows
      rintro rfl
      rw [hgone] at hrow'
      cases hrow'
    | @settled now k settle visible a job₀ he hr ha hown hsettled hrows houtcomes =>
      by_cases hid : id = a.job.id
      · subst hid
        obtain rfl : job₀ = job := Option.some.inj ((owned_eq_some_iff.mp hown).1.symm.trans hrow)
        rw [hrow'] at hsettled
        obtain ⟨t, ⟨-, rfl⟩ | ⟨-, rfl⟩⟩ := hsettled <;> exact ⟨job₀, rfl, rfl⟩
      · exact hkeeps (hrows id hid)

end State

end BetterGraphileWorker
