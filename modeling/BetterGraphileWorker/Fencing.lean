-- SUMMARY: Fencing: every write of the library changes something only while its attempt holds the row's lock.
import BetterGraphileWorker.System.WellFormed

/-!
# Fencing

`owned()` compares the lock owner and the lock time in milliseconds. When two claims
of one row by one pool never share a millisecond, it identifies the attempt, and the
row lock carries that check to the later statements of a transaction.
-/

namespace BetterGraphileWorker

/-- A claim's lock time differs from the earlier ones of its pool on the row, in milliseconds. -/
def lockTimesDiffer (s : State) : Event → Bool
  | .claim now pool id _ => !s.attempts.any fun _ a =>
      a.job.id = id && a.job.lockedBy = pool && a.job.lockedAt = truncateMs now
  | _ => true

/-- The condition `lockTimesDiffer` on a run. -/
def LockTimesDiffer (s : State) (e : Event) : Prop := lockTimesDiffer s e = true

/-- The helpers of two attempts never carry the same lock of a row. -/
def DistinctLocks (s : State) : Prop :=
  ∀ k k' a a', s.attempts.get? k = some a → s.attempts.get? k' = some a' →
    a.job.id = a'.job.id → a.job.lockedBy = a'.job.lockedBy → a.job.lockedAt = a'.job.lockedAt →
    k = k'

/-- The row's current lock is the one that the attempt was given. -/
def Holds (s : State) (k : ℕ) : Prop :=
  ∃ a job, s.attempts.get? k = some a ∧ s.db.jobs.get? a.job.id = some job ∧
    job.lock = some a.lock

variable {s s' : State} {e : Event} {r : Reply} {k k' : ℕ} {a a' : Attempt} {job : Job}

theorem distinctLocks_exec (hdist : DistinctLocks s) (hdiff : LockTimesDiffer s e)
    (h : s.exec e = some (s', r)) : DistinctLocks s' := by
  -- The new attempt's lock differs from every earlier one.
  have hnew : ∀ {now pool id jobOutcomes k a}, e = .claim now pool id jobOutcomes →
      s.attempts.get? k = some a → a.job.id = id → a.job.lockedBy = pool →
      a.job.lockedAt ≠ truncateMs now := by
    intro now pool id jobOutcomes k a he ha hid hpool hat
    subst he
    have hany : (s.attempts.any fun _ a => a.job.id = id && a.job.lockedBy = pool &&
        a.job.lockedAt = truncateMs now) = true :=
      Table.any_iff.mpr ⟨k, a, ha, by simp [hid, hpool, hat]⟩
    simp [LockTimesDiffer, lockTimesDiffer, hany] at hdiff
  intro k k' a a' ha ha' hid hpool hat
  rcases State.attempt_origin h ha with ⟨b, hb, hjob, -⟩ |
    ⟨now, pool, id, jobOutcomes, row, he, hk, hrow, -, hjob⟩ <;>
  rcases State.attempt_origin h ha' with ⟨b', hb', hjob', -⟩ |
    ⟨now', pool', id', jobOutcomes', row', he', hk', hrow', -, hjob'⟩
  · rw [hjob, hjob'] at hid hpool hat
    exact hdist k k' b b' hb hb' hid hpool hat
  · rw [hjob, hjob'] at hid hpool hat
    exact absurd hat (hnew he' hb hid hpool)
  · rw [hjob, hjob'] at hid hpool hat
    exact absurd hat.symm (hnew he hb' hid.symm hpool.symm)
  · rw [hk, hk']

theorem distinctLocks_reachable {cond : State → Event → Prop}
    (hcond : ∀ s e, cond s e → LockTimesDiffer s e) (h : system.ReachableWith cond s) :
    DistinctLocks s := by
  refine h.invariant (fun s (hs : s = State.initial) => ?_) fun s e s' _ hdist hc hstep => ?_
  · subst hs
    intro k k' a a' ha
    cases ha
  · obtain ⟨r, hexec⟩ := system_step_iff.mp hstep
    exact distinctLocks_exec hdist (hcond s e hc) hexec

/-- `owned()` only selects a row that the attempt holds. -/
theorem lock_of_owned (hwf : Wf s) (hdist : DistinctLocks s) (ha : s.attempts.get? k = some a)
    (hown : s.db.owned a.job = some job) : job.lock = some a.lock := by
  obtain ⟨hrow, howns⟩ := owned_eq_some_iff.mp hown
  obtain ⟨lock, hlock, hby, hat⟩ := owns_iff.mp howns
  obtain ⟨k', a', ha', hid, hgiven⟩ := hwf.given _ _ _ hrow hlock
  obtain ⟨hcopyBy, hcopyAt⟩ := hwf.lockCopy k' a' ha'
  have hk : k' = k := hdist k' k a' a ha' ha hid (by rw [hcopyBy, hgiven, hby])
    (by rw [hcopyAt, hgiven, hat])
  obtain rfl : a' = a := by
    rw [hk, ha] at ha'
    exact (Option.some.inj ha').symm
  rw [hlock, hgiven]

theorem holds_of_owned (hwf : Wf s) (hdist : DistinctLocks s) (ha : s.attempts.get? k = some a)
    (hown : s.db.owned a.job = some job) : Holds s k :=
  ⟨a, job, ha, (owned_eq_some_iff.mp hown).1, lock_of_owned hwf hdist ha hown⟩

/-- One attempt at a time holds a row. -/
theorem holds_unique (hwf : Wf s) (hdist : DistinctLocks s) (ha : s.attempts.get? k = some a)
    (ha' : s.attempts.get? k' = some a') (hid : a.job.id = a'.job.id) (hlock : a.lock = a'.lock) :
    k = k' := by
  obtain ⟨hby, hat⟩ := hwf.lockCopy k a ha
  obtain ⟨hby', hat'⟩ := hwf.lockCopy k' a' ha'
  exact hdist k k' a a' ha ha' hid (by rw [hby, hby', hlock]) (by rw [hat, hat', hlock])

/-- Who holds a row after a step held it before, or has just claimed it. -/
theorem holder_cases (hwf : Wf s) (hdist : DistinctLocks s') (h : s.exec e = some (s', r))
    {job' : Job} (ha' : s'.attempts.get? k = some a') (hrow' : s'.db.jobs.get? a'.job.id = some job')
    (hlock : job'.lock = some a'.lock) :
    (∃ now pool jobOutcomes job, e = .claim now pool a'.job.id jobOutcomes ∧ k = s.nextAttempt ∧
      s.db.jobs.get? a'.job.id = some job ∧ claimable now s.db job = true ∧
      job' = job.lockFor ⟨pool, now⟩ ∧
      a'.job = .ofJob a'.job.id (job.lockFor ⟨pool, now⟩) ⟨pool, now⟩ ∧
      a'.cache = Payload.extractStepCache job.payload ∧ a'.ended = none) ∨
    ∃ a job, s.attempts.get? k = some a ∧ a'.job = a.job ∧ a'.lock = a.lock ∧
      s.db.jobs.get? a.job.id = some job ∧ job.lock = some a.lock := by
  rcases State.attempt_origin h ha' with ⟨a, ha, hjob, hgiven⟩ |
    ⟨now, pool, id, jobOutcomes, job, rfl, rfl, hrow, -, hjob⟩
  · rw [hjob] at hrow'
    rw [hgiven] at hlock
    have hchange := State.row_change hwf h a.job.id
    rw [hrow'] at hchange
    generalize hrow : s.db.jobs.get? a.job.id = before at hchange
    refine .inr ⟨a, ?_⟩
    cases hchange with
    | inserted _ _ hnone => simp [hnone] at hlock
    | continuation => simp [newJob] at hlock
    | unlocked => simp [Job.fail] at hlock
    | claimed job he hfree hclaim hnow =>
      -- The new attempt's lock would be an older attempt's.
      subst he
      obtain ⟨b, hb, hbid, hbgiven, -⟩ := State.attempt_claim h
      have hsame : b.lock = a'.lock := by
        rw [hbgiven, hgiven]
        exact Option.some.inj hlock
      have hk := holds_unique (State.wf_exec hwf h) hdist ha' hb (by rw [hjob, hbid]) hsame.symm
      exact absurd (hwf.attemptBelow k a ha).1 (by simp [hk])
    | queued job _ hfree hq => exact ⟨job, ha, hjob, hgiven, hrow, hq.lock ▸ hlock⟩
    | suspended job mid he htx hb hr hq =>
      exact ⟨job, ha, hjob, hgiven, hrow, hq.lock ▸ hlock⟩
    | continued job => exact ⟨job, ha, hjob, hgiven, hrow, Job.retired_lock ▸ hlock⟩
    | same => exact ⟨job', ha, hjob, hgiven, hrow, hlock⟩
    | checkpointed job | progressed job | woken job | retried job | exhausted job | finished job =>
      exact ⟨job, ha, hjob, hgiven, hrow, hlock⟩
  · obtain ⟨job₁, hrow₁, hclaim, -, -, -, rfl⟩ := State.claim_cases h
    obtain rfl : job₁ = job := Option.some.inj (hrow₁.symm.trans hrow)
    simp only [Table.get?_insert_self, Option.some.injEq] at ha'
    subst ha'
    refine .inl ⟨now, pool, jobOutcomes, job₁, rfl, rfl, hrow, hclaim, ?_, rfl, rfl, rfl⟩
    simpa [HelpersJob.ofJob, hrow] using hrow'.symm

/-! ## The library's writes -/

/-- The attempt that issues a write of the library. -/
def issuer (s : State) : Event → Option ℕ
  | .checkpoint k .. | .writeProgress k | .retry _ k _ | .settle _ k .. | .waitBegin _ k _
  | .continueBegin _ k .. => some k
  | .waitLookup id | .waitCommit id _ | .continueCommit id => (s.txs.get? id).map (·.attempt)
  | _ => none

/-- The attempt of an open transaction holds its row until the transaction ends. -/
theorem holds_of_tx (hwf : Wf s) (hdist : DistinctLocks s) {id : JobId} {tx : Tx}
    (htx : s.txs.get? id = some tx) : Holds s tx.attempt := by
  obtain ⟨a, job, ha, hid, hrow, howns, -⟩ := hwf.tx id tx htx
  exact holds_of_owned hwf hdist ha (owned_eq_some_iff.mpr ⟨hid ▸ hrow, howns⟩)

/--
A write of the library, stale or current, changes the database only while the row's lock is
the one its attempt was given; otherwise it changes nothing and is refused.
-/
theorem write_fenced (hreach : system.ReachableWith LockTimesDiffer s)
    (h : s.exec e = some (s', r)) (hk : issuer s e = some k) :
    Holds s k ∨ s'.db = s.db ∧ (r = .refused ∨ r = .rejected) := by
  have hwf := wf_reachable hreach
  have hdist := distinctLocks_reachable (fun _ _ hc => hc) hreach
  cases e with
  | tick | addJob | claim | failJob | completeJob | release | setProgress | rollback | sweepLost
  | sweepWake | sweepOrphans => cases hk
  | checkpoint k stepId output resolved =>
    obtain rfl := Option.some.inj hk
    obtain ⟨a, ha, -, -, -, ⟨rfl, rfl⟩ | ⟨db, hok, -⟩⟩ := State.checkpoint_cases h
    · exact .inr ⟨rfl, .inl rfl⟩
    · obtain ⟨job, hown, -⟩ := patchEnvelope_ok hok
      exact .inl (holds_of_owned hwf hdist ha hown)
  | writeProgress k =>
    obtain rfl := Option.some.inj hk
    obtain ⟨a, ha, -, ⟨rfl, rfl⟩ | ⟨value, db, hok, -⟩⟩ := State.writeProgress_cases h
    · exact .inr ⟨rfl, .inl rfl⟩
    · obtain ⟨job, hown, -⟩ := patchEnvelope_ok hok
      exact .inl (holds_of_owned hwf hdist ha hown)
  | retry now k runAt =>
    obtain rfl := Option.some.inj hk
    obtain ⟨a, ha, -, -, ⟨-, rfl, rfl⟩ | ⟨job, hown, -⟩⟩ := State.retry_cases h
    · exact .inr ⟨rfl, .inl rfl⟩
    · exact .inl (holds_of_owned hwf hdist ha hown)
  | settle now k settle visible =>
    obtain rfl := Option.some.inj hk
    obtain ⟨a, ha, -, -, ⟨-, rfl, rfl⟩ | ⟨db, hsettle, -⟩⟩ := State.settle_cases h
    · exact .inr ⟨rfl, .inl rfl⟩
    · obtain ⟨job, -, -, hown, -⟩ := settleJob_true hsettle
      exact .inl (holds_of_owned hwf hdist ha hown)
  | waitBegin now k call =>
    obtain rfl := Option.some.inj hk
    obtain ⟨a, ha, -, -, -, -, ⟨rfl, ⟨rfl, -⟩ | ⟨rfl, -⟩⟩ | ⟨job, hown, -⟩⟩ :=
      State.waitBegin_cases h
    · exact .inr ⟨rfl, .inr rfl⟩
    · exact .inr ⟨rfl, .inl rfl⟩
    · exact .inl (holds_of_owned hwf hdist ha hown)
  | continueBegin now k runAt traceparent =>
    obtain rfl := Option.some.inj hk
    obtain ⟨a, ha, -, -, -, ⟨rfl, rfl⟩ | ⟨-, ⟨-, rfl, rfl⟩ | ⟨job, hown, -⟩⟩⟩ :=
      State.continueBegin_cases h
    · exact .inr ⟨rfl, .inr rfl⟩
    · exact .inr ⟨rfl, .inl rfl⟩
    · exact .inl (holds_of_owned hwf hdist ha hown)
  | waitLookup id | waitCommit id prepared | continueCommit id =>
    obtain ⟨tx, htx, rfl⟩ := Option.map_eq_some_iff.mp hk
    exact .inl (holds_of_tx hwf hdist htx)

/-! ## A stale attempt -/

namespace FencingTrace

def spec : JobSpec where
  identifier := "import"
  payload := Payload.injectTraceContext (some (.num 1)) none
  queueName := none
  runAt := none
  maxAttempts := some 4
  jobKey := none
  priority := none
  flags := none
  jobKeyMode := .replace

/-- The first attempt's pool is presumed dead, its job released and claimed again. -/
def released : List Event :=
  [.addJob 0 spec, .claim 0 "a" 1 false, .release 0 ["a"], .tick 10000000, .claim 10000000 "a" 1 false]

end FencingTrace

theorem write_fenced_stale : ∃ s s' r, system.ReachableWith LockTimesDiffer s ∧
    s.exec (.checkpoint 0 "step" none true) = some (s', r) ∧
    (Holds s 0 ∨ s'.db = s.db ∧ (r = .refused ∨ r = .rejected)) := by
  obtain ⟨s, hreach, hexec⟩ := system.exists_reachableWith_of_runWith FencingTrace.released
    (fun s => (s.exec (.checkpoint 0 "step" none true)).isSome)
    (fun s e (hc : lockTimesDiffer s e = true) => (hc : LockTimesDiffer s e)) rfl (by decide)
  obtain ⟨⟨s', r⟩, h⟩ := Option.isSome_iff_exists.mp hexec
  exact ⟨s, s', r, hreach, h, write_fenced hreach h rfl⟩

end BetterGraphileWorker
