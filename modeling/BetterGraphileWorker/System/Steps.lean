-- SUMMARY: Inversion lemmas: what each step of the system requires and does.
import BetterGraphileWorker.System
import BetterGraphileWorker.Database.Effects

/-!
# Steps

Each lemma reads one enabled step back: the guards that held and the state after it.
Invariant proofs take a step apart with these and never unfold `exec`.
-/

namespace BetterGraphileWorker

namespace State

variable {s s' : State} {r : Reply} {k : ℕ} {id : JobId} {now : Time}

theorem ownedFree_iff {helpers : HelpersJob} : s.ownedFree helpers = true ↔
    ∀ job, s.db.owned helpers = some job → s.txs.get? helpers.id = none := by
  cases hown : s.db.owned helpers <;> simp [ownedFree, rowFree, hown]

theorem write_cases {statement : Attempt → Db → Option Db} (h : s.write k statement = some (s', r)) :
    ∃ a, s.attempts.get? k = some a ∧ s.ownedFree a.job = true ∧
      (statement a s.db = none ∧ s' = s ∧ r = .refused ∨
        ∃ db, statement a s.db = some db ∧ s' = { s with db } ∧ r = .done) := by
  unfold write at h
  cases ha : s.attempts.get? k with
  | none => simp [ha] at h
  | some a =>
    simp only [ha] at h
    split at h
    · rename_i hfree
      refine ⟨a, rfl, hfree, ?_⟩
      cases hst : statement a s.db with
      | none =>
        simp only [hst, Option.some.injEq, Prod.mk.injEq] at h
        exact .inl ⟨rfl, h.1.symm, h.2.symm⟩
      | some db =>
        simp only [hst, Option.some.injEq, Prod.mk.injEq] at h
        exact .inr ⟨db, rfl, h.1.symm, h.2.symm⟩
    · cases h

theorem settle_cases {settle : Settle} {visible : WaitKey → Bool}
    (h : s.settle now k settle visible = some (s', r)) :
    ∃ a, s.attempts.get? k = some a ∧ now ≤ s.now ∧ s.ownedFree a.job = true ∧
      (s.db.owned a.job = none ∧ s' = s ∧ r = .refused ∨
        ∃ db, settleJob now a.job settle visible s.db = (db, true) ∧ s' = { s with db } ∧ r = .done ∧
          ∀ report, settle.report = some report →
            s.reportFree (childReport a.job.id report visible) = true) := by
  unfold State.settle at h
  cases ha : s.attempts.get? k with
  | none => simp [ha] at h
  | some a =>
    simp only [ha] at h
    split at h
    · rename_i hguard
      obtain ⟨hnow, hfree⟩ := hguard
      obtain ⟨a', ha', hrow, hcases⟩ := write_cases h
      obtain rfl : a = a' := by simpa [ha] using ha'
      refine ⟨a, rfl, hnow, hrow, ?_⟩
      cases hown : s.db.owned a.job with
      | none =>
        simp only [settleJob_of_not_owned hown] at hcases
        obtain ⟨-, hs', hr⟩ | ⟨db, hdb, -⟩ := hcases
        · exact .inl ⟨rfl, hs', hr⟩
        · cases hdb
      | some job =>
        have htrue := settleJob_of_owned now settle visible hown
        rcases hsettle : settleJob now a.job settle visible s.db with ⟨db₁, b⟩
        simp only [hsettle] at htrue hcases
        subst htrue
        obtain ⟨hdb, -⟩ | ⟨db, hdb, hs', hr⟩ := hcases
        · cases hdb
        · simp only [Option.some.injEq] at hdb
          subst hdb
          refine .inr ⟨db₁, rfl, hs', hr, fun report hreport => ?_⟩
          simpa [hown, hreport] using hfree
    · cases h

theorem claim_cases {pool : PoolId} {jobOutcomes : Bool}
    (h : s.claim now pool id jobOutcomes = some (s', r)) :
    ∃ job, s.db.jobs.get? id = some job ∧ claimable now s.db job = true ∧ s.txs.get? id = none ∧
      now ≤ s.now ∧ r = .done ∧
      s' = { s with
        db := getJob now pool id job s.db
        attempts := s.attempts.insert s.nextAttempt {
          job := .ofJob id (job.lockFor ⟨pool, now⟩) ⟨pool, now⟩
          lock := ⟨pool, now⟩
          jobOutcomes
          cache := Payload.extractStepCache job.payload
          progress := if Payload.isPayloadEnvelope job.payload then job.payload.get? "progress"
            else none
          continueCalled := false
          ended := none }
        nextAttempt := s.nextAttempt + 1 } := by
  unfold claim at h
  cases hrow : s.db.jobs.get? id with
  | none => simp [hrow] at h
  | some job =>
    simp only [hrow] at h
    split at h
    · rename_i hguard
      obtain ⟨hclaim, hfree, hnow⟩ := hguard
      simp only [Option.some.injEq, Prod.mk.injEq] at h
      exact ⟨job, rfl, hclaim, by simpa [rowFree] using hfree, hnow, h.2.symm, h.1.symm⟩
    · cases h

theorem checkpoint_cases {stepId : String} {output : Option Json} {resolved : Bool}
    (h : s.checkpoint k stepId output resolved = some (s', r)) :
    ∃ a, s.attempts.get? k = some a ∧ callable a stepId = true ∧ a.cache stepId = none ∧
      s.ownedFree a.job = true ∧
      (s' = s ∧ r = .refused ∨
        ∃ db, writeCheckpoint a.job stepId (entry output).toJson s.db = .ok db ∧ r = .done ∧
          s' = { s with
            db
            attempts := s.attempts.insert k
              (if resolved then
                { a with cache := Function.update a.cache stepId (some (entry output)) }
              else a) }) := by
  unfold checkpoint at h
  cases ha : s.attempts.get? k with
  | none => simp [ha] at h
  | some a =>
    simp only [ha] at h
    split at h
    · rename_i hguard
      obtain ⟨hcall, hcache, hfree⟩ := hguard
      refine ⟨a, rfl, hcall, by simpa using hcache, hfree, ?_⟩
      split at h
      · simp only [Option.some.injEq, Prod.mk.injEq] at h
        exact .inl ⟨h.1.symm, h.2.symm⟩
      · rename_i db hok
        simp only [Option.some.injEq, Prod.mk.injEq] at h
        exact .inr ⟨db, hok, h.2.symm, h.1.symm⟩
    · cases h

theorem waitBegin_cases {call : WaitCall} (h : s.waitBegin now k call = some (s', r)) :
    ∃ a, s.attempts.get? k = some a ∧ callable a call.waitId = true ∧ a.cache call.waitId = none ∧
      s.ownedFree a.job = true ∧ now ≤ s.now ∧
      (s' = s ∧ (r = .rejected ∧ a.ended.any (·.isContinued) = true ∨
          r = .refused ∧ s.db.owned a.job = none) ∨
        ∃ job, s.db.owned a.job = some job ∧ a.ended.any (·.isContinued) = false ∧ r = .done ∧
          s' = { s with txs := s.txs.insert a.job.id ⟨k, now, .waitLocked call a.ended.isSome⟩ }) := by
  unfold waitBegin at h
  cases ha : s.attempts.get? k with
  | none => simp [ha] at h
  | some a =>
    simp only [ha] at h
    split at h
    · rename_i hguard
      obtain ⟨hcall, hcache, hfree, hnow⟩ := hguard
      refine ⟨a, rfl, hcall, by simpa using hcache, hfree, hnow, ?_⟩
      split at h
      · rename_i hended
        simp only [Option.some.injEq, Prod.mk.injEq] at h
        exact .inl ⟨h.1.symm, .inl ⟨h.2.symm, hended⟩⟩
      · rename_i hended
        split at h
        · rename_i hown
          simp only [Option.some.injEq, Prod.mk.injEq] at h
          exact .inl ⟨h.1.symm, .inr ⟨h.2.symm, hown⟩⟩
        · rename_i job hown
          simp only [Option.some.injEq, Prod.mk.injEq] at h
          exact .inr ⟨job, hown, by simpa using hended, h.2.symm, h.1.symm⟩
    · cases h

theorem waitLookup_cases (h : s.waitLookup id = some (s', r)) :
    ∃ k now call suspended, s.txs.get? id = some ⟨k, now, .waitLocked call suspended⟩ ∧ r = .done ∧
      s' = { s with
        txs := s.txs.insert id
          ⟨k, now, .waitLooked call suspended (findGroup now (id, call.waitId) s.db)⟩ } := by
  unfold waitLookup at h
  split at h
  · rename_i k now call suspended htx
    simp only [Option.some.injEq, Prod.mk.injEq] at h
    exact ⟨k, now, call, suspended, htx, h.2.symm, h.1.symm⟩
  · cases h

theorem waitCommit_cases {prepared : List Prepared}
    (h : s.waitCommit id prepared = some (s', r)) :
    ∃ k now call suspended found a,
      s.txs.get? id = some ⟨k, now, .waitLooked call suspended found⟩ ∧
      s.attempts.get? k = some a ∧
      (found = none → prepared.length = call.inputs.length ∧
        s.childrenFree id now call.queue (call.inputs.zip prepared)
          (insertGroup now (id, call.waitId) call s.db) = true) ∧
      (s' = { s with txs := s.txs.erase id } ∧ r = .refused ∧
          (∃ err, enterWait now a.job call suspended found prepared s.db = .error err) ∨
        ∃ db entered, enterWait now a.job call suspended found prepared s.db = .ok (db, entered) ∧
          r = .entered entered ∧
          s' = { s with
            db
            attempts := s.attempts.insert k (Attempt.leave a call.waitId entered)
            txs := s.txs.erase id }) := by
  unfold waitCommit at h
  split at h
  · rename_i k now call suspended found htx
    cases ha : s.attempts.get? k with
    | none => simp [ha] at h
    | some a =>
      simp only [ha] at h
      split at h
      · rename_i hguard
        refine ⟨k, now, call, suspended, found, a, htx, ha, ?_, ?_⟩
        · rintro rfl
          simpa using hguard
        · split at h
          · rename_i err herr
            simp only [Option.some.injEq, Prod.mk.injEq] at h
            exact .inl ⟨h.1.symm, h.2.symm, err, herr⟩
          · rename_i db entered hok
            simp only [Option.some.injEq, Prod.mk.injEq] at h
            exact .inr ⟨db, entered, hok, h.2.symm, h.1.symm⟩
      · cases h
  · cases h

theorem continueBegin_cases {runAt : Option Time} {traceparent : Option String}
    (h : s.continueBegin now k runAt traceparent = some (s', r)) :
    ∃ a, s.attempts.get? k = some a ∧ Payload.isPayloadEnvelope a.job.payload = true ∧
      s.ownedFree a.job = true ∧ now ≤ s.now ∧
      (s' = s ∧ r = .rejected ∨
        a.ended = none ∧
        (s.db.owned a.job = none ∧ r = .refused ∧
          s' = { s with attempts := s.attempts.insert k { a with continueCalled := true } } ∨
        ∃ job, s.db.owned a.job = some job ∧ r = .done ∧
          s' = { s with
            attempts := s.attempts.insert k { a with continueCalled := true }
            txs := s.txs.insert a.job.id
              ⟨k, now, .continuing job runAt traceparent a.progress⟩ })) := by
  unfold continueBegin at h
  cases ha : s.attempts.get? k with
  | none => simp [ha] at h
  | some a =>
    simp only [ha] at h
    split at h
    · rename_i hguard
      obtain ⟨henv, hfree, hnow⟩ := hguard
      refine ⟨a, rfl, henv, hfree, hnow, ?_⟩
      split at h
      · simp only [Option.some.injEq, Prod.mk.injEq] at h
        exact .inl ⟨h.1.symm, h.2.symm⟩
      · rename_i hended
        rw [not_or] at hended
        refine .inr ⟨by simpa using hended.2, ?_⟩
        split at h
        · rename_i hown
          simp only [Option.some.injEq, Prod.mk.injEq] at h
          exact .inl ⟨hown, h.2.symm, h.1.symm⟩
        · rename_i job hown
          simp only [Option.some.injEq, Prod.mk.injEq] at h
          exact .inr ⟨job, hown, h.2.symm, h.1.symm⟩
    · cases h

theorem continueCommit_cases (h : s.continueCommit id = some (s', r)) :
    ∃ k now job runAt traceparent progress a,
      s.txs.get? id = some ⟨k, now, .continuing job runAt traceparent progress⟩ ∧
      s.attempts.get? k = some a ∧
      s.planFree (some id) (planAdd s.db (continueSpec job runAt traceparent progress)) = true ∧
      (s' = { s with txs := s.txs.erase id } ∧ r = .refused ∨
        ∃ db next, continueJob now a.job job runAt traceparent progress a.jobOutcomes s.db =
            .ok (db, next) ∧ r = .continued next ∧
          s' = { s with
            db
            attempts := s.attempts.insert k { a with ended := a.ended <|> some (.continued next) }
            txs := s.txs.erase id }) := by
  unfold continueCommit at h
  split at h
  · rename_i k now job runAt traceparent progress htx
    cases ha : s.attempts.get? k with
    | none => simp [ha] at h
    | some a =>
      simp only [ha] at h
      split at h
      · rename_i hguard
        refine ⟨k, now, job, runAt, traceparent, progress, a, htx, ha, hguard, ?_⟩
        split at h
        · simp only [Option.some.injEq, Prod.mk.injEq] at h
          exact .inl ⟨h.1.symm, h.2.symm⟩
        · rename_i db next hok
          simp only [Option.some.injEq, Prod.mk.injEq] at h
          exact .inr ⟨db, next, hok, h.2.symm, h.1.symm⟩
      · cases h
  · cases h

theorem rollback_cases (h : s.exec (.rollback id) = some (s', r)) :
    ∃ tx, s.txs.get? id = some tx ∧ s' = { s with txs := s.txs.erase id } := by
  simp only [exec] at h
  split at h
  · cases h
  · rename_i tx htx
    simp only [Option.some.injEq, Prod.mk.injEq] at h
    exact ⟨tx, htx, h.1.symm⟩

/-! Statements with a guard, and no attempt that they are part of. -/

private theorem eq_of_guard {p : Prop} [Decidable p] {db : Db}
    (h : (if p then some ({ s with db }, Reply.done) else none) = some (s', r)) :
    p ∧ s' = { s with db } := by
  split at h
  · rename_i hguard
    simp only [Option.some.injEq, Prod.mk.injEq] at h
    exact ⟨hguard, h.1.symm⟩
  · cases h

theorem addJob_cases {spec : JobSpec} (h : s.exec (.addJob now spec) = some (s', r)) :
    (s.planFree none (planAdd s.db spec) = true ∧ now ≤ s.now) ∧
      s' = { s with db := (addJob now spec s.db).1 } :=
  eq_of_guard h

theorem failJob_cases {pool : PoolId} {error : String} (h : s.exec (.failJob now pool id error) = some (s', r)) :
    (s.rowFree id = true ∧ now ≤ s.now) ∧ s' = { s with db := failJob now pool id error s.db } :=
  eq_of_guard h

theorem completeJob_cases {pool : PoolId} (h : s.exec (.completeJob pool id) = some (s', r)) :
    s.rowFree id = true ∧ s' = { s with db := completeJob pool id s.db } :=
  eq_of_guard h

theorem release_cases {pools : List PoolId} (h : s.exec (.release now pools) = some (s', r)) :
    ((s.txs.any fun id _ => (s.db.jobs.get? id).any fun job => pools.any job.lockedByPool) = false ∧
      now ≤ s.now) ∧ s' = { s with db := releaseJobsLockedBy now pools s.db } :=
  eq_of_guard h

theorem sweepLost_cases {seen : JobId → Option Job} {skipped : WaitKey → Bool}
    (h : s.exec (.sweepLost now seen skipped) = some (s', r)) :
    (now ≤ s.now ∧ s.reportFree (lostReport s.db seen skipped) = true) ∧
      s' = { s with db := sweepLost now seen skipped s.db } :=
  eq_of_guard h

theorem sweepWake_cases (h : s.exec (.sweepWake now) = some (s', r)) :
    now ≤ s.now ∧ s' = { s with db := sweepWake now s.db } :=
  eq_of_guard h

theorem setProgress_cases {value : Json} (h : s.exec (.setProgress k value) = some (s', r)) :
    ∃ a, s.attempts.get? k = some a ∧
      s' = { s with attempts := s.attempts.insert k { a with progress := some value } } := by
  simp only [exec] at h
  split at h
  · cases h
  · rename_i a ha
    simp only [Option.some.injEq, Prod.mk.injEq] at h
    exact ⟨a, ha, h.1.symm⟩

end State

theorem State.writeProgress_cases {s s' : State} {r : Reply} {k : ℕ}
    (h : s.exec (.writeProgress k) = some (s', r)) :
    ∃ a, s.attempts.get? k = some a ∧ s.ownedFree a.job = true ∧
      (s' = s ∧ r = .refused ∨
        ∃ value db, writeProgress a.job value s.db = .ok db ∧ s' = { s with db } ∧ r = .done) := by
  simp only [exec] at h
  split at h
  · cases h
  · rename_i value hvalue
    obtain ⟨a, ha, hfree, ⟨-, hs', hr⟩ | ⟨db, hdb, hs', hr⟩⟩ := write_cases h
    · exact ⟨a, ha, hfree, .inl ⟨hs', hr⟩⟩
    · refine ⟨a, ha, hfree, .inr ⟨value, db, ?_, hs', hr⟩⟩
      cases hok : BetterGraphileWorker.writeProgress a.job value s.db with
      | error err => simp [hok, Except.toOption] at hdb
      | ok db' => simpa [hok, Except.toOption] using hdb

theorem State.retry_cases {s s' : State} {r : Reply} {k : ℕ} {now runAt : Time}
    (h : s.exec (.retry now k runAt) = some (s', r)) :
    ∃ a, s.attempts.get? k = some a ∧ s.ownedFree a.job = true ∧ now ≤ s.now ∧
      (s.db.owned a.job = none ∧ s' = s ∧ r = .refused ∨
        ∃ job, s.db.owned a.job = some job ∧ r = .done ∧
          s' = { s with
            db := s.db.updateJob a.job.id (·.setRunAt (runAt - graphileBackoff job.attempts)) }) := by
  simp only [exec] at h
  split at h
  · rename_i hnow
    obtain ⟨a, ha, hfree, ⟨hnone, hs', hr⟩ | ⟨db, hdb, rfl, hr⟩⟩ := write_cases h
    · refine ⟨a, ha, hfree, hnow, .inl ⟨?_, hs', hr⟩⟩
      cases hown : s.db.owned a.job with
      | none => rfl
      | some job => simp [scheduleRetry, hown, Except.toOption] at hnone
    · refine ⟨a, ha, hfree, hnow, .inr ?_⟩
      cases hok : scheduleRetry now a.job runAt s.db with
      | error err => simp [hok, Except.toOption] at hdb
      | ok res =>
        simp only [hok, Except.toOption, Option.map_some, Option.some.injEq] at hdb
        subst hdb
        obtain ⟨job, hown, hres⟩ := scheduleRetry_ok hok
        exact ⟨job, hown, hr, by rw [hres]⟩
  · cases h

/-- A single statement that writes nothing but the database. -/
def Event.dbOnly : Event → Bool
  | .addJob .. | .failJob .. | .completeJob .. | .release .. | .writeProgress .. | .retry ..
  | .settle .. | .sweepLost .. | .sweepWake .. | .sweepOrphans => true
  | _ => false

/-- Such a statement leaves attempts, transactions and the clock alone. -/
theorem State.frame_of_dbOnly {s s' : State} {r : Reply} {e : Event}
    (h : s.exec e = some (s', r)) (he : e.dbOnly = true) :
    s'.attempts = s.attempts ∧ s'.txs = s.txs ∧ s'.now = s.now ∧ s'.nextAttempt = s.nextAttempt := by
  cases e with
  | tick | claim | checkpoint | setProgress | waitBegin | waitLookup | waitCommit | continueBegin
  | continueCommit | rollback => cases he
  | addJob now spec | failJob now pool id error | completeJob pool id | release now pools
  | sweepLost now seen skipped | sweepWake now =>
    simp only [exec] at h
    split at h
    · simp only [Option.some.injEq, Prod.mk.injEq] at h
      obtain ⟨rfl, -⟩ := h
      exact ⟨rfl, rfl, rfl, rfl⟩
    · cases h
  | sweepOrphans =>
    simp only [exec, Option.some.injEq, Prod.mk.injEq] at h
    obtain ⟨rfl, -⟩ := h
    exact ⟨rfl, rfl, rfl, rfl⟩
  | writeProgress k =>
    obtain ⟨a, -, -, ⟨rfl, -⟩ | ⟨value, db, -, rfl, -⟩⟩ := writeProgress_cases h
    · exact ⟨rfl, rfl, rfl, rfl⟩
    · exact ⟨rfl, rfl, rfl, rfl⟩
  | retry now k runAt =>
    obtain ⟨a, -, -, -, ⟨-, rfl, -⟩ | ⟨job, -, -, rfl⟩⟩ := retry_cases h
    · exact ⟨rfl, rfl, rfl, rfl⟩
    · exact ⟨rfl, rfl, rfl, rfl⟩
  | settle now k settle visible =>
    obtain ⟨a, -, -, -, ⟨-, rfl, -⟩ | ⟨db, -, rfl, -⟩⟩ := settle_cases h
    · exact ⟨rfl, rfl, rfl, rfl⟩
    · exact ⟨rfl, rfl, rfl, rfl⟩

end BetterGraphileWorker
