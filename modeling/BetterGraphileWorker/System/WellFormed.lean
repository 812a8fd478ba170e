-- SUMMARY: Every reachable state is well-formed: fresh ids, unique keys, and row locks held by their owners.
import BetterGraphileWorker.System.Changes

/-!
# Well-formed states

`Wf` is an invariant of the system. Its field `tx` is the row lock: while a
transaction is open, its row, its group and its attempt stay as it read them.
-/

namespace BetterGraphileWorker

namespace State

variable {s s' : State} {r : Reply} {e : Event} {k : ℕ} {id : JobId} {now : Time}

/-! ## The database -/

theorem now_le (h : s.exec e = some (s', r)) : s.now ≤ s'.now := by
  by_cases he : e.dbOnly = true
  · exact (frame_of_dbOnly h he).2.2.1.ge
  cases e with
  | addJob | failJob | completeJob | release | writeProgress | retry | settle | sweepLost
  | sweepWake | sweepOrphans => exact absurd rfl he
  | tick d =>
    simp only [exec, Option.some.injEq, Prod.mk.injEq] at h
    obtain ⟨rfl, -⟩ := h
    exact le_add_of_nonneg_right (Int.natCast_nonneg d)
  | claim now pool id jobOutcomes =>
    obtain ⟨job, -, -, -, -, -, rfl⟩ := claim_cases h
    exact le_refl _
  | checkpoint k stepId output resolved =>
    obtain ⟨a, -, -, -, -, ⟨rfl, -⟩ | ⟨db, -, -, rfl⟩⟩ := checkpoint_cases h <;> exact le_refl _
  | setProgress k value =>
    obtain ⟨a, -, rfl⟩ := setProgress_cases h
    exact le_refl _
  | waitBegin now k call =>
    obtain ⟨a, -, -, -, -, -, ⟨rfl, -⟩ | ⟨job, -, -, -, rfl⟩⟩ := waitBegin_cases h <;> exact le_refl _
  | waitLookup id =>
    obtain ⟨k, now, call, suspended, -, -, rfl⟩ := waitLookup_cases h
    exact le_refl _
  | waitCommit id prepared =>
    obtain ⟨k, now, call, suspended, found, a, -, -, -, ⟨rfl, -⟩ | ⟨db, entered, -, -, rfl⟩⟩ :=
      waitCommit_cases h <;> exact le_refl _
  | continueBegin now k runAt traceparent =>
    obtain ⟨a, -, -, -, -, ⟨rfl, -⟩ | ⟨-, ⟨-, -, rfl⟩ | ⟨job, -, -, rfl⟩⟩⟩ :=
      continueBegin_cases h <;> exact le_refl _
  | continueCommit id =>
    obtain ⟨k, now, job, runAt, traceparent, progress, a, -, -, -, ⟨rfl, -⟩ |
      ⟨db, next, -, -, rfl⟩⟩ := continueCommit_cases h <;> exact le_refl _
  | rollback id =>
    obtain ⟨tx, -, rfl⟩ := rollback_cases h
    exact le_refl _

/-- What a step that inserts no row does to ids and keys. -/
private def KeepsRows (db db' : Db) : Prop :=
  db'.nextId = db.nextId ∧ ∀ id job', db'.jobs.get? id = some job' →
    ∃ job, db.jobs.get? id = some job ∧ (job'.key = job.key ∨ job'.key = none)

private theorem ok_of_keepsRows {db db' : Db} (h : KeepsRows db db') (hids : db.IdsBelow)
    (hkeys : db.KeysUnique) :
    db.nextId ≤ db'.nextId ∧ db'.IdsBelow ∧ db'.KeysUnique := by
  obtain ⟨hnext, hrows⟩ := h
  refine ⟨hnext.ge, fun id job' hget => ?_, fun id id' job job' key hget hget' hkey hkey' => ?_⟩
  · obtain ⟨job, hjob, -⟩ := hrows id job' hget
    exact hnext ▸ hids id job hjob
  · obtain ⟨row, hrow, hk | hk⟩ := hrows id job hget
    · obtain ⟨row', hrow', hk' | hk'⟩ := hrows id' job' hget'
      · exact hkeys id id' row row' key hrow hrow' (hk.symm.trans hkey) (hk'.symm.trans hkey')
      · simp [hk'] at hkey'
    · simp [hk] at hkey

/-- Steps that may insert job rows. -/
def enqueues : Event → Bool
  | .addJob .. | .waitCommit .. | .continueCommit .. => true
  | _ => false

theorem nextId_of_not_enqueues (h : s.exec e = some (s', r)) (he : enqueues e = false) :
    s'.db.nextId = s.db.nextId := by
  cases e with
  | addJob | waitCommit | continueCommit => cases he
  | tick d | sweepOrphans =>
    simp only [exec, Option.some.injEq, Prod.mk.injEq] at h
    obtain ⟨rfl, -⟩ := h
    rfl
  | claim now pool id jobOutcomes =>
    obtain ⟨job, -, -, -, -, -, rfl⟩ := claim_cases h
    rfl
  | failJob now pool id error =>
    obtain ⟨-, rfl⟩ := failJob_cases h
    exact failJob_nextId
  | completeJob pool id =>
    obtain ⟨-, rfl⟩ := completeJob_cases h
    exact completeJob_nextId
  | release now pools =>
    obtain ⟨-, rfl⟩ := release_cases h
    rfl
  | sweepLost now seen skipped =>
    obtain ⟨-, rfl⟩ := sweepLost_cases h
    rfl
  | sweepWake now =>
    obtain ⟨-, rfl⟩ := sweepWake_cases h
    rfl
  | checkpoint k stepId output resolved =>
    obtain ⟨a, -, -, -, -, ⟨rfl, -⟩ | ⟨db, hok, -, rfl⟩⟩ := checkpoint_cases h
    · rfl
    · exact (patchEnvelope_frame hok).2.2
  | setProgress k value =>
    obtain ⟨a, -, rfl⟩ := setProgress_cases h
    rfl
  | writeProgress k =>
    obtain ⟨a, -, -, ⟨rfl, -⟩ | ⟨value, db, hok, rfl, -⟩⟩ := writeProgress_cases h
    · rfl
    · exact (patchEnvelope_frame hok).2.2
  | retry now k runAt =>
    obtain ⟨a, -, -, -, ⟨-, rfl, -⟩ | ⟨job, -, -, rfl⟩⟩ := retry_cases h <;> rfl
  | settle now k settle visible =>
    obtain ⟨a, -, -, -, ⟨-, rfl, -⟩ | ⟨db, hsettle, rfl, -⟩⟩ := settle_cases h
    · rfl
    obtain ⟨job, db₁, db₂, -, hdb₁, hdb₂, rfl⟩ := settleJob_true hsettle
    rcases hdb₂ with ⟨-, rfl⟩ | ⟨report, -, rfl⟩ <;> rcases hdb₁ with rfl | ⟨outcome, rfl⟩ <;> simp
  | waitBegin now k call =>
    obtain ⟨a, -, -, -, -, -, ⟨rfl, -⟩ | ⟨job, -, -, -, rfl⟩⟩ := waitBegin_cases h <;> rfl
  | waitLookup id =>
    obtain ⟨k, now, call, suspended, -, -, rfl⟩ := waitLookup_cases h
    rfl
  | continueBegin now k runAt traceparent =>
    obtain ⟨a, -, -, -, -, ⟨rfl, -⟩ | ⟨-, ⟨-, -, rfl⟩ | ⟨job, -, -, rfl⟩⟩⟩ :=
      continueBegin_cases h <;> rfl
  | rollback id =>
    obtain ⟨tx, -, rfl⟩ := rollback_cases h
    rfl

private theorem keepsRows_of_not_enqueues (hwf : Wf s) (h : s.exec e = some (s', r))
    (he : enqueues e = false) : KeepsRows s.db s'.db := by
  refine ⟨nextId_of_not_enqueues h he, fun id job' hget => ?_⟩
  have hchange := row_change hwf h id
  rw [hget] at hchange
  generalize hrow : s.db.jobs.get? id = before at hchange
  cases hchange with
  | same => exact ⟨job', rfl, .inl rfl⟩
  | inserted job hid hlock hadd =>
    obtain ⟨now, spec, rfl⟩ | ⟨id', prepared, rfl⟩ := hadd <;> cases he
  | queued job job' hfree hq => exact ⟨job, rfl, hq.key⟩
  | claimed job | unlocked job | checkpointed job | progressed job | woken job | retried job
  | exhausted job => exact ⟨job, rfl, .inl rfl⟩
  | suspended job mid hwait => subst hwait; cases he
  | finished job hwait => subst hwait; cases he
  | continued job hcont => subst hcont; cases he
  | continuation hcont => subst hcont; cases he

private theorem keepsRows_suspendJob (key : GroupKey) (suspended : Bool) (ids : List JobId)
    (db : Db) : KeepsRows db (suspendJob key suspended (markWaited ids (insertWaits key ids db))) := by
  refine ⟨by simp, fun id job' hget => ?_⟩
  cases hgroup : (markWaited ids (insertWaits key ids db)).groups.get? key with
  | none =>
    simp only [suspendJob, hgroup, get?_markWaited, insertWaits_jobs, Option.map_eq_some_iff] at hget
    obtain ⟨job, hrow, rfl⟩ := hget
    refine ⟨job, hrow, .inl ?_⟩
    split <;> rfl
  | some group =>
    rw [get?_suspendJob hgroup, get?_markWaited, insertWaits_jobs] at hget
    cases hrow : db.jobs.get? id with
    | none => simp [hrow] at hget
    | some job =>
      refine ⟨job, rfl, .inl ?_⟩
      simp only [hrow, Option.map_some] at hget
      split at hget <;> simp only [Option.some.injEq] at hget <;> subst hget <;> split <;> rfl

private theorem db_ok_waitCommit (hwf : Wf s) {prepared : List Prepared}
    (h : s.waitCommit id prepared = some (s', r)) :
    s.db.nextId ≤ s'.db.nextId ∧ s'.db.IdsBelow ∧ s'.db.KeysUnique := by
  obtain ⟨k, now, call, suspended, found, a, htx, ha, -, ⟨rfl, -⟩ | ⟨db, entered, hok, -, rfl⟩⟩ :=
    waitCommit_cases h
  · exact ⟨le_refl _, hwf.idsBelow, hwf.keysUnique⟩
  cases found with
  | none =>
    rw [enterWait_missing] at hok
    simp only [Except.ok.injEq, Prod.mk.injEq] at hok
    obtain ⟨rfl, -⟩ := hok
    have henq := enqueued_enqueueChildren now call.queue (call.inputs.zip prepared)
      (show (insertGroup now (a.job.id, call.waitId) call s.db).IdsBelow from hwf.idsBelow)
    obtain ⟨hnext, hids, hkeys⟩ := ok_of_keepsRows (keepsRows_suspendJob _ _ _ _) henq.idsBelow
      (henq.keysUnique hwf.keysUnique)
    exact ⟨henq.nextId_le.trans hnext, hids, hkeys⟩
  | some group =>
    obtain ⟨checkpoint, -, -, hfin⟩ | ⟨-, -, -, rfl⟩ := enterWait_found hok
    · obtain ⟨-, db₁, hwrite, rfl⟩ := finishWait_ok hfin
      refine ok_of_keepsRows ⟨(patchEnvelope_frame hwrite).2.2, fun i job' hget => ?_⟩
        hwf.idsBelow hwf.keysUnique
      rw [deleteGroup_jobs, get?_patchEnvelope hwrite] at hget
      split at hget
      · obtain ⟨job, hrow, rfl⟩ := Option.map_eq_some_iff.mp hget
        exact ⟨job, hrow, .inl rfl⟩
      · exact ⟨job', hget, .inl rfl⟩
    · refine ok_of_keepsRows ⟨suspendJob_nextId, fun i job' hget => ?_⟩ hwf.idsBelow hwf.keysUnique
      cases hgroup : s.db.groups.get? (a.job.id, call.waitId) with
      | none => exact ⟨job', by simpa [suspendJob, hgroup] using hget, .inl rfl⟩
      | some g =>
        rw [get?_suspendJob hgroup] at hget
        split at hget
        · obtain ⟨job, hrow, rfl⟩ := Option.map_eq_some_iff.mp hget
          exact ⟨job, hrow, .inl rfl⟩
        · exact ⟨job', hget, .inl rfl⟩

private theorem db_ok_continueCommit (hwf : Wf s) (h : s.continueCommit id = some (s', r)) :
    s.db.nextId ≤ s'.db.nextId ∧ s'.db.IdsBelow ∧ s'.db.KeysUnique := by
  obtain ⟨k, now, job, runAt, traceparent, progress, a, htx, ha, -, ⟨rfl, -⟩ |
    ⟨db, next, hok, -, rfl⟩⟩ := continueCommit_cases h
  · exact ⟨le_refl _, hwf.idsBelow, hwf.keysUnique⟩
  obtain ⟨rfl, hnext, -, hrows, -⟩ := continue_tables hwf htx ha hok
  obtain ⟨a', job', -, -, hrow, -, -, rfl, -⟩ := hwf.tx id _ htx
  -- A row with the continuation's key would be the retired row, whose key is gone.
  have hold : ∀ i row key, i ≠ s.db.nextId → db.jobs.get? i = some row → row.key = some key →
      s.db.jobs.get? i = some row ∧ i ≠ id := by
    intro i row key hi hget hkey
    rw [hrows, if_neg hi] at hget
    split at hget
    · split at hget
      · cases hget
      · simp only [Option.some.injEq] at hget
        subst hget
        rw [Job.retired_key] at hkey
        cases hkey
    · rename_i hne
      exact ⟨hget, hne⟩
  have hnew : ∀ row key, db.jobs.get? s.db.nextId = some row → row.key = some key →
      job.key = some key := by
    intro row key hget hkey
    rw [hrows, if_pos rfl, Option.some.injEq] at hget
    subst hget
    exact hkey
  refine ⟨by rw [hnext]; exact Nat.le_succ _, fun i row hget => ?_,
    fun i i' row row' key hget hget' hkey hkey' => ?_⟩
  · rw [hnext]
    rw [hrows] at hget
    split at hget
    · rename_i hi; rw [hi]; exact Nat.lt_succ_self _
    · split at hget
      · rename_i hi
        rw [hi]
        exact Nat.lt_succ_of_lt (hwf.idsBelow _ _ hrow)
      · exact Nat.lt_succ_of_lt (hwf.idsBelow _ _ hget)
  · by_cases hi : i = s.db.nextId <;> by_cases hi' : i' = s.db.nextId
    · rw [hi, hi']
    · subst hi
      obtain ⟨hget', hne⟩ := hold i' row' key hi' hget' hkey'
      exact absurd (hwf.keysUnique i' id row' job key hget' hrow hkey' (hnew row key hget hkey)) hne
    · subst hi'
      obtain ⟨hget, hne⟩ := hold i row key hi hget hkey
      exact absurd (hwf.keysUnique i id row job key hget hrow hkey (hnew row' key hget' hkey')) hne
    · exact hwf.keysUnique i i' row row' key (hold i row key hi hget hkey).1
        (hold i' row' key hi' hget' hkey').1 hkey hkey'

/-- Ids stay fresh and keys unique. -/
theorem db_ok (hwf : Wf s) (h : s.exec e = some (s', r)) :
    s.db.nextId ≤ s'.db.nextId ∧ s'.db.IdsBelow ∧ s'.db.KeysUnique := by
  by_cases he : enqueues e = false
  · exact ok_of_keepsRows (keepsRows_of_not_enqueues hwf h he) hwf.idsBelow hwf.keysUnique
  cases e with
  | addJob now spec =>
    obtain ⟨-, rfl⟩ := addJob_cases h
    have henq := enqueued_addJob now spec hwf.idsBelow
    exact ⟨henq.nextId_le, henq.idsBelow, henq.keysUnique hwf.keysUnique⟩
  | waitCommit id prepared => exact db_ok_waitCommit hwf h
  | continueCommit id => exact db_ok_continueCommit hwf h
  | _ => exact absurd rfl he

/-! ## Attempts and transactions -/

/-- An attempt keeps its helpers and its lock. -/
theorem attempt_persists (hwf : Wf s) (h : s.exec e = some (s', r)) {a : Attempt}
    (ha : s.attempts.get? k = some a) :
    ∃ a', s'.attempts.get? k = some a' ∧ a'.job = a.job ∧ a'.lock = a.lock := by
  have hchange := attempt_change h k
  rw [ha] at hchange
  generalize hafter : s'.attempts.get? k = after at hchange
  cases hchange with
  | same => exact ⟨a, rfl, rfl, rfl⟩
  | started o he hk => exact absurd (hk ▸ (hwf.attemptBelow k a ha).1) (lt_irrefl _)
  | left a he htx hr =>
    rename_i entered
    cases entered <;> exact ⟨_, rfl, rfl, rfl⟩
  | checkpointed | progressed | called | continued => exact ⟨_, rfl, rfl, rfl⟩

/-- Where an attempt comes from: it was there before, or the step is its claim. -/
theorem attempt_origin (h : s.exec e = some (s', r)) {a' : Attempt}
    (ha' : s'.attempts.get? k = some a') :
    (∃ a, s.attempts.get? k = some a ∧ a'.job = a.job ∧ a'.lock = a.lock) ∨
      ∃ now pool id jobOutcomes job, e = .claim now pool id jobOutcomes ∧ k = s.nextAttempt ∧
        s.db.jobs.get? id = some job ∧ a'.lock = ⟨pool, now⟩ ∧
        a'.job = .ofJob id (job.lockFor ⟨pool, now⟩) ⟨pool, now⟩ := by
  have hchange := attempt_change h k
  rw [ha'] at hchange
  generalize hbefore : s.attempts.get? k = before at hchange
  cases hchange with
  | same => exact .inl ⟨a', rfl, rfl, rfl⟩
  | started o he hk hrow => exact .inr ⟨_, _, _, _, _, he, hk, hrow, rfl, rfl⟩
  | left a he htx hr =>
    rename_i entered
    cases entered <;> exact .inl ⟨a, rfl, rfl, rfl⟩
  | checkpointed a | progressed a | called a | continued a => exact .inl ⟨a, rfl, rfl, rfl⟩

theorem nextAttempt_change (h : s.exec e = some (s', r)) :
    s'.nextAttempt = s.nextAttempt ∨
      (∃ now pool id jobOutcomes, e = .claim now pool id jobOutcomes) ∧
        s'.nextAttempt = s.nextAttempt + 1 := by
  by_cases he : e.dbOnly = true
  · exact .inl (frame_of_dbOnly h he).2.2.2
  cases e with
  | addJob | failJob | completeJob | release | writeProgress | retry | settle | sweepLost
  | sweepWake | sweepOrphans => exact absurd rfl he
  | tick d =>
    simp only [exec, Option.some.injEq, Prod.mk.injEq] at h
    obtain ⟨rfl, -⟩ := h
    exact .inl rfl
  | claim now pool id jobOutcomes =>
    obtain ⟨job, -, -, -, -, -, rfl⟩ := claim_cases h
    exact .inr ⟨⟨_, _, _, _, rfl⟩, rfl⟩
  | checkpoint k stepId output resolved =>
    obtain ⟨a, -, -, -, -, ⟨rfl, -⟩ | ⟨db, -, -, rfl⟩⟩ := checkpoint_cases h <;> exact .inl rfl
  | setProgress k value =>
    obtain ⟨a, -, rfl⟩ := setProgress_cases h
    exact .inl rfl
  | waitBegin now k call =>
    obtain ⟨a, -, -, -, -, -, ⟨rfl, -⟩ | ⟨job, -, -, -, rfl⟩⟩ := waitBegin_cases h <;> exact .inl rfl
  | waitLookup id =>
    obtain ⟨k, now, call, suspended, -, -, rfl⟩ := waitLookup_cases h
    exact .inl rfl
  | waitCommit id prepared =>
    obtain ⟨k, now, call, suspended, found, a, -, -, -, ⟨rfl, -⟩ | ⟨db, entered, -, -, rfl⟩⟩ :=
      waitCommit_cases h <;> exact .inl rfl
  | continueBegin now k runAt traceparent =>
    obtain ⟨a, -, -, -, -, ⟨rfl, -⟩ | ⟨-, ⟨-, -, rfl⟩ | ⟨job, -, -, rfl⟩⟩⟩ :=
      continueBegin_cases h <;> exact .inl rfl
  | continueCommit id =>
    obtain ⟨k, now, job, runAt, traceparent, progress, a, -, -, -, ⟨rfl, -⟩ |
      ⟨db, next, -, -, rfl⟩⟩ := continueCommit_cases h <;> exact .inl rfl
  | rollback id =>
    obtain ⟨tx, -, rfl⟩ := rollback_cases h
    exact .inl rfl

/-- A claim adds the next attempt. -/
theorem attempt_claim {pool : PoolId} {jobOutcomes : Bool}
    (h : s.exec (.claim now pool id jobOutcomes) = some (s', r)) :
    ∃ a, s'.attempts.get? s.nextAttempt = some a ∧ a.job.id = id ∧ a.lock = ⟨pool, now⟩ ∧
      s'.nextAttempt = s.nextAttempt + 1 := by
  obtain ⟨job, -, -, -, -, -, rfl⟩ := claim_cases h
  exact ⟨_, Table.get?_insert_self, rfl, rfl, rfl⟩

/-- A transaction that stays open does not commit in this step. -/
private theorem not_commit_of_open (h : s.exec e = some (s', r)) {tx : Tx}
    (htx : s.txs.get? id = some tx) (hopen : s'.txs.get? id ≠ none) :
    (∀ prepared, e ≠ .waitCommit id prepared) ∧ e ≠ .continueCommit id := by
  have hchange := tx_change h id
  rw [htx] at hchange
  generalize hafter : s'.txs.get? id = after at hchange hopen
  cases hchange with
  | same o he => exact ⟨(he (by simp)).2, (he (by simp)).1⟩
  | closed => exact absurd rfl hopen
  | lookedUp he => subst he; exact ⟨by simp, by simp⟩

/-- While a transaction stays open, nothing changes the row it holds. -/
theorem held_row (hwf : Wf s) (h : s.exec e = some (s', r)) {tx : Tx}
    (htx : s.txs.get? id = some tx) (hopen : s'.txs.get? id ≠ none) :
    s'.db.jobs.get? id = s.db.jobs.get? id := by
  have hne : s.txs.get? id ≠ none := by simp [htx]
  have hcommit := not_commit_of_open h htx hopen
  obtain ⟨-, job, -, -, hrow, -⟩ := hwf.tx id tx htx
  have hchange := row_change hwf h id
  rw [hrow] at hchange ⊢
  generalize s'.db.jobs.get? id = after at hchange
  cases hchange with
  | same => rfl
  | deleted job hfree | queued job job' hfree | claimed job he hfree | unlocked job hfree
  | woken job hfree | exhausted job hfree => exact absurd hfree hne
  | checkpointed job he hr ha hid howns hfree => exact absurd hfree hne
  | progressed job he ha hid howns hfree => exact absurd hfree hne
  | retried job he ha hid howns hfree => exact absurd hfree hne
  | suspended job mid he => exact absurd he (hcommit.1 _)
  | finished job he => exact absurd he (hcommit.1 _)
  | continued job he => exact absurd he hcommit.2
  | continuedAway job he => exact absurd he hcommit.2

/-- While a wait's transaction stays open, nothing changes what it found of its group. -/
theorem held_group (hwf : Wf s) (h : s.exec e = some (s', r)) {call : WaitCall} {suspended : Bool}
    {found : Option FoundGroup} (htx : s.txs.get? id = some ⟨k, now, .waitLooked call suspended found⟩)
    (hfound : found = findGroup now (id, call.waitId) s.db) (hopen : s'.txs.get? id ≠ none) :
    s'.db.groups.get? (id, call.waitId) = s.db.groups.get? (id, call.waitId) := by
  have hcommit := not_commit_of_open h htx hopen
  cases tables_change hwf h with
  | same hg hw => rw [hg]
  | retargeted he htx' hr hwaited hg hw => rw [hg]
  | reported now' report hnow hfree he hg hw =>
    rw [hg, get?_reportWaits_groups]
    cases hgroup : s.db.groups.get? (id, call.waitId) with
    | none => rfl
    | some group =>
      have hzero : s.db.reported report (id, call.waitId) = 0 := by
        by_contra hpos
        have hany : (s.txs.any fun id tx =>
            (tx.heldWait.any fun waitId => 0 < s.db.reported report (id, waitId)) ||
              s.db.wakesParent (s.db.reported report) id) = true := by
          refine Table.any_iff.mpr ⟨id, _, htx, ?_⟩
          simp [Tx.heldWait, hfound, findGroup, hgroup, Nat.pos_of_ne_zero hpos]
        simp [reportFree, hany] at hfree
      simp [hzero, Group.countDown]
  | @created id' _ _ _ call' _ he htx' hr hlen hg hw =>
    rw [hg, Table.get?_insert_ne]
    intro heq
    simp only [Prod.mk.injEq] at heq
    exact absurd (heq.1 ▸ he) (hcommit.1 _)
  | @deleted id' _ _ _ call' _ _ he htx' hleave hr hg hw =>
    rw [hg, get?_deleteGroup_groups, if_neg]
    intro heq
    simp only [Prod.mk.injEq] at heq
    exact absurd (heq.1 ▸ he) (hcommit.1 _)
  | orphaned he hg hw =>
    obtain ⟨-, job, -, -, hrow, -⟩ := hwf.tx id _ htx
    rw [hg]
    cases hgroup : s.db.groups.get? (id, call.waitId) <;>
      simp [BetterGraphileWorker.sweepOrphans, hgroup, hrow]

/-- The attempt of an open transaction does nothing else that its transaction relies on. -/
theorem held_attempt (hwf : Wf s) (h : s.exec e = some (s', r)) {tx : Tx}
    (htx : s.txs.get? id = some tx) (hopen : s'.txs.get? id ≠ none) {a : Attempt}
    (ha : s.attempts.get? tx.attempt = some a) :
    ∃ a', s'.attempts.get? tx.attempt = some a' ∧ a'.job = a.job ∧ a'.lock = a.lock ∧
      a'.cache = a.cache ∧ a'.ended = a.ended := by
  have hcommit := not_commit_of_open h htx hopen
  obtain ⟨hid, job, hrow, hown⟩ := owned_of_tx hwf htx ha
  have hheld : s.txs.get? a.job.id ≠ none := by simp [hid, htx]
  -- A commit by this attempt is a commit of this transaction.
  have hsame : ∀ id' tx', s.txs.get? id' = some tx' → tx'.attempt = tx.attempt → id' = id := by
    intro id' tx' htx' hk
    obtain ⟨hid', -⟩ := owned_of_tx hwf htx' (hk ▸ ha)
    exact hid'.symm.trans hid
  have hchange := attempt_change h tx.attempt
  rw [ha] at hchange
  generalize hafter : s'.attempts.get? tx.attempt = after at hchange
  cases hchange with
  | same => exact ⟨a, rfl, rfl, rfl, rfl, rfl⟩
  | started o he hk => exact absurd (hk ▸ (hwf.attemptBelow _ a ha).1) (lt_irrefl _)
  | checkpointed a he hr hown' hfree => exact absurd hfree hheld
  | progressed => exact ⟨_, rfl, rfl, rfl, rfl, rfl⟩
  | called a he hfree => exact ⟨_, rfl, rfl, rfl, rfl, rfl⟩
  | left a he htx' hr => exact absurd (hsame _ _ htx' rfl ▸ he) (hcommit.1 _)
  | continued a he htx' hr => exact absurd (hsame _ _ htx' rfl ▸ he) hcommit.2

/-! ## The invariant -/

private theorem given_exec (hwf : Wf s) (h : s.exec e = some (s', r)) {job' : Job} {lock : Lock}
    (hget : s'.db.jobs.get? id = some job') (hlock : job'.lock = some lock) :
    ∃ k a, s'.attempts.get? k = some a ∧ a.job.id = id ∧ a.lock = lock := by
  -- A lock that was there before was given to an attempt that is still there.
  have hold : ∀ job, s.db.jobs.get? id = some job → job.lock = some lock →
      ∃ k a, s'.attempts.get? k = some a ∧ a.job.id = id ∧ a.lock = lock := by
    intro job hrow hl
    obtain ⟨k, a, ha, hid, hla⟩ := hwf.given id job lock hrow hl
    obtain ⟨a', ha', hjob, hlock'⟩ := attempt_persists hwf h ha
    exact ⟨k, a', ha', by rw [hjob, hid], by rw [hlock', hla]⟩
  have hchange := row_change hwf h id
  rw [hget] at hchange
  generalize hrow : s.db.jobs.get? id = before at hchange
  cases hchange with
  | same => exact hold job' hrow hlock
  | inserted job hid hl => simp [hl] at hlock
  | continuation => cases hlock
  | unlocked job => cases hlock
  | queued job job' hfree hq => exact hold job hrow (hq.lock ▸ hlock)
  | suspended job mid he htx ha hr hq => exact hold job hrow (hq.lock ▸ hlock)
  | continued job => exact hold job hrow (Job.retired_lock ▸ hlock)
  | checkpointed job | progressed job | woken job | retried job | exhausted job | finished job =>
    exact hold job hrow hlock
  | claimed job he =>
    subst he
    obtain ⟨a, ha, hid, hl, -⟩ := attempt_claim h
    exact ⟨_, a, ha, hid, by rw [hl]; simpa [Job.lockFor] using hlock⟩

private theorem tx_exec (hwf : Wf s) (h : s.exec e = some (s', r)) {tx : Tx}
    (htx' : s'.txs.get? id = some tx) : TxOk s' id tx := by
  have hopen : s'.txs.get? id ≠ none := by simp [htx']
  have hnow := now_le h
  have hchange := tx_change h id
  rw [htx'] at hchange
  generalize hbefore : s.txs.get? id = before at hchange
  -- A transaction that was open keeps its row, its attempt and its group.
  have hold : ∀ tx₀, s.txs.get? id = some tx₀ → tx₀.attempt = tx.attempt →
      tx₀.startedAt = tx.startedAt → (∀ a job, StageOk s.db id a job tx₀.startedAt tx₀.stage →
        ∀ a', a'.job = a.job → a'.cache = a.cache → a'.ended = a.ended →
          StageOk s'.db id a' job tx.startedAt tx.stage) → TxOk s' id tx := by
    intro tx₀ htx₀ hk hat hstage
    obtain ⟨a, job, ha, hid, hrow, howns, hstart, hok⟩ := hwf.tx id tx₀ htx₀
    obtain ⟨a', ha', hjob, -, hcache, hended⟩ := held_attempt hwf h htx₀ hopen ha
    exact ⟨a', job, hk ▸ ha', by rw [hjob, hid], by rw [held_row hwf h htx₀ hopen, hrow],
      by rw [hjob, howns], hat ▸ hstart.trans hnow, hstage a job hok a' hjob hcache hended⟩
  cases hchange with
  | same o he =>
    refine hold tx hbefore rfl rfl fun a job hok a' hjob hcache hended => ?_
    obtain ⟨k, now, stage⟩ := tx
    cases stage with
    | waitLocked call suspended =>
      simpa [StageOk, State.callable, hcache, hended, hjob] using hok
    | waitLooked call suspended found =>
      obtain ⟨h₁, h₂, h₃, h₄, hfound⟩ := hok
      refine ⟨by rw [hcache, h₁], by rw [hended, h₂], by rw [hended, h₃], ?_, ?_⟩
      · simpa [State.callable, hjob] using h₄
      · rw [hfound, findGroup, findGroup, held_group hwf h hbefore hfound hopen]
    | continuing job' runAt traceparent progress =>
      exact ⟨hok.1, by rw [hended, hok.2]⟩
  | lookedUp he =>
    subst he
    refine hold _ hbefore rfl rfl fun a job hok a' hjob hcache hended => ?_
    obtain ⟨h₁, h₂, h₃, h₄⟩ := hok
    refine ⟨by rw [hcache, h₁], by rw [hended, h₂], by rw [hended, h₃], ?_, ?_⟩
    · simpa [State.callable, hjob] using h₄
    · obtain ⟨k, now, call, suspended, -, -, rfl⟩ := waitLookup_cases h
      rfl
  | waitBegun he ha hid hown hcall hcache hended hstart =>
    subst he
    obtain ⟨a', ha', -, -, -, -, ⟨rfl, -⟩ | ⟨job', -, -, -, rfl⟩⟩ := waitBegin_cases h
    · simp [hbefore] at htx'
    obtain ⟨hrow, howns⟩ := owned_eq_some_iff.mp hown
    exact ⟨_, _, ha, hid, hid ▸ hrow, howns, hstart, hcache, hended, rfl, hcall⟩
  | continueBegun he ha hid hown hended henv hstart =>
    subst he
    obtain ⟨a', ha', -, -, -, ⟨rfl, -⟩ | ⟨-, ⟨-, -, rfl⟩ | ⟨job', -, -, rfl⟩⟩⟩ := continueBegin_cases h
    · simp [hbefore] at htx'
    · simp [hbefore] at htx'
    obtain rfl := Option.some.inj (ha.symm.trans ha')
    obtain ⟨hrow, howns⟩ := owned_eq_some_iff.mp hown
    exact ⟨_, _, Table.get?_insert_self, hid, hid ▸ hrow, howns, hstart, rfl, hended⟩

theorem wf_initial : Wf State.initial where
  idsBelow _ _ h := by cases h
  keysUnique _ _ _ _ _ h := by cases h
  attemptBelow _ _ h := by cases h
  lockCopy _ _ h := by cases h
  given _ _ _ h := by cases h
  tx _ _ h := by cases h

theorem wf_exec (hwf : Wf s) (h : s.exec e = some (s', r)) : Wf s' where
  idsBelow := (db_ok hwf h).2.1
  keysUnique := (db_ok hwf h).2.2
  attemptBelow k a ha := by
    have hnext := (db_ok hwf h).1
    rcases attempt_origin h ha with ⟨a₀, ha₀, hjob, -⟩ |
      ⟨now, pool, id, jobOutcomes, job, rfl, rfl, hrow, -, hjob⟩
    · obtain ⟨hk, hid⟩ := hwf.attemptBelow k a₀ ha₀
      refine ⟨?_, hjob ▸ lt_of_lt_of_le hid hnext⟩
      rcases nextAttempt_change h with hn | ⟨-, hn⟩ <;> omega
    · obtain ⟨-, -, -, -, hn⟩ := attempt_claim h
      refine ⟨by omega, ?_⟩
      rw [hjob]
      exact lt_of_lt_of_le (hwf.idsBelow _ _ hrow) hnext
  lockCopy k a ha := by
    rcases attempt_origin h ha with ⟨a₀, ha₀, hjob, hlock⟩ |
      ⟨now, pool, id, jobOutcomes, job, rfl, rfl, -, hlock, hjob⟩
    · unfold Attempt.LockCopy
      rw [hjob, hlock]
      exact hwf.lockCopy k a₀ ha₀
    · rw [Attempt.LockCopy, hjob, hlock]
      exact ⟨rfl, rfl⟩
  given _ _ _ hget hlock := given_exec hwf h hget hlock
  tx _ _ htx := tx_exec hwf h htx

end State

/-- A step of the system is an enabled step of the state. -/
theorem system_step_iff {s s' : State} {e : Event} :
    system.step s e = some s' ↔ ∃ r, s.exec e = some (s', r) := by
  simp [system]

theorem wf_reachable {cond : State → Event → Prop} {s : State} (h : system.ReachableWith cond s) :
    Wf s := by
  refine h.invariant (fun s (hs : s = State.initial) => hs ▸ State.wf_initial) fun s e s' _ hwf _ hstep => ?_
  obtain ⟨r, hexec⟩ := system_step_iff.mp hstep
  exact State.wf_exec hwf hexec

end BetterGraphileWorker
