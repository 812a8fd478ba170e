-- SUMMARY: Retry times: a failed attempt's retry time is a lower bound, unless a wait group of the job wakes it earlier.
import Mathlib.Algebra.Order.Monoid.Unbundled.MinMax
import BetterGraphileWorker.Wakeup

/-!
# Retry times

`scheduleRetry` moves a locked row's `run_at` back by the backoff that the failure update
adds again. Two other writers move `run_at` up: the wake of a finished wait and the sweep's
repair. Neither tells a job that sleeps at a wait from one that sleeps for its retry.
-/

namespace BetterGraphileWorker

/-- What failed attempts promised about the next one. -/
structure Retries where
  /-- The time of a `RetryAtError`, scheduled by the run that holds the row. -/
  asked : JobId → Option Time
  /-- The run that holds the row ended at a wait. -/
  suspended : JobId → Bool
  /-- The earliest start of the next attempt. -/
  notBefore : JobId → Option Time

def Retries.empty : Retries := ⟨fun _ => none, fun _ => false, fun _ => none⟩

section
variable (s : State) (e : Event) (s' : State) (id : JobId)

/-- The row is gone, or the step re-added its key. -/
def State.drops : Bool :=
  !(s.db.jobs.get? id).any fun job =>
    (s'.db.jobs.get? id).any fun job' => job'.generation = job.generation && job'.key = job.key

/-- The time that the step's `scheduleRetry` asks for. -/
def State.asks : Option Time :=
  match e with
  | .retry _ k runAt =>
    if (s.attempts.get? k).any fun a => a.job.id = id && (s.db.owned a.job).isSome then some runAt
    else none
  | _ => none

/-- The step commits a suspension of the run that holds the row. -/
def State.suspends : Bool :=
  match e with
  | .waitCommit id' _ =>
    id' = id && match s.exec e with
      | some (_, .entered .suspended) => true
      | _ => false
  | _ => false

/-- The `now()` of a step that fails or releases locked rows. -/
def Event.failedAt : Event → Option Time
  | .failJob now _ _ _ | .release now _ => some now
  | _ => none

end

/-- When an attempt of the row can start if `run_at` is `t`; the failure update is still to come while it is locked. -/
def Job.startAt (job : Job) (t : Time) : Time :=
  if job.lock.isSome then t + graphileBackoff job.attempts else t

/-- The promise of a run that fails: the default backoff, and the time it asked for. -/
def Retries.promise (w : Retries) (id : JobId) (backoff : Time) : Option Time :=
  match w.asked id with
  | some t => some (max t backoff)
  | none => if w.suspended id then none else some backoff

def Retries.note (s : State) (e : Event) (s' : State) (w : Retries) : Retries where
  asked id :=
    if s.drops s' id || s.unlocks s' id || e.claims id then none
    else s.asks e id <|> w.asked id
  suspended id := !(s.unlocks s' id || e.claims id) && (s.suspends e id || w.suspended id)
  notBefore id :=
    if s.drops s' id || e.claims id then none
    else match s.db.jobs.get? id, e.failedAt with
      | some job, some now =>
        if s.unlocks s' id then w.promise id (now + graphileBackoff job.attempts)
        else w.notBefore id
      | _, _ => w.notBefore id

/-- The system with the history of its failed attempts. -/
def retries : TransitionSystem (State × Retries) Event := system.observe .empty Retries.note

/-- What the row's next attempt has to wait for. -/
def Retries.due (w : Retries) (id : JobId) (job : Job) : Option Time :=
  if job.lock.isSome then w.asked id else w.notBefore id

/--
The step wakes a job before its retry time because one of its wait groups is finished, or
suspends a run that has asked for its retry.
-/
def wakesRetry (p : State × Retries) (e : Event) : Bool :=
  p.1.db.jobs.any fun id job =>
    ((p.1.wakesAt id e).any fun now => (p.2.due id job).any fun t => job.startAt now < t) ||
      p.1.suspends e id && (p.2.asked id).isSome

/-- The next attempt of an unlocked row starts no earlier than promised. -/
def RetriesKept (p : State × Retries) : Prop :=
  ∀ id job t, p.1.db.jobs.get? id = some job → job.lock = none → p.2.notBefore id = some t →
    t ≤ job.runAt ∧
      ∀ now pool jobOutcomes s' r, p.1.exec (.claim now pool id jobOutcomes) = some (s', r) → t ≤ now

/-! ## How a row's start moves -/

variable {s s' : State} {e : Event} {r : Reply} {id : JobId} {w : Retries}

/-- How a step moves a row's `run_at`. -/
inductive StartChange (s : State) (e : Event) (id : JobId) (job job' : Job) : Prop where
  | kept (hrun : job'.runAt = job.runAt ∨
        ∃ now, s.wakesAt id e = some now ∧ job'.runAt = min job.runAt now)
      (hlock : job'.lock = job.lock) (hattempts : job'.attempts = job.attempts)
  | claimed (he : e.claims id = true)
  | failed (now : Time) (he : e.failedAt = some now) (hlock : job.lock.isSome) (hlock' : job'.lock = none)
      (hrun : job'.runAt = max now job.runAt + graphileBackoff job.attempts)
  | asked (t : Time) (he : s.asks e id = some t)
  | suspended (he : s.suspends e id = true) (hlock : job'.lock.isSome)

private theorem drops_eq_false {job job' : Job} (hrow : s.db.jobs.get? id = some job)
    (hrow' : s'.db.jobs.get? id = some job') (h : s.drops s' id = false) :
    job'.generation = job.generation ∧ job'.key = job.key := by
  simpa [State.drops, hrow, hrow'] using h

theorem queued_start {job job' : Job} (h : Queued job job')
    (hgen : job'.generation = job.generation) (hkey : job'.key = job.key) :
    job'.runAt = job.runAt ∧ job'.lock = job.lock ∧ job'.attempts = job.attempts := by
  obtain ⟨mid, hr, hjob'⟩ := h
  have hmid : mid.generation = job.generation ∧ mid.key = job.key := by
    rcases hjob' with rfl | ⟨-, rfl⟩ <;> exact ⟨hgen, hkey⟩
  have hsame : mid = job := by
    rcases hr.kept hmid.1 with h | h
    · exact h
    · apply hr.keyless
      rw [← hmid.2, h]
      rfl
  subst hsame
  rcases hjob' with rfl | ⟨-, rfl⟩ <;> exact ⟨rfl, rfl, rfl⟩

theorem suspends_of_commit {prepared : List Prepared} (h : s.exec e = some (s', r))
    (he : e = .waitCommit id prepared) (hr : r = .entered .suspended) : s.suspends e id = true := by
  subst he hr
  simp [State.suspends, h]

theorem start_change (hwf : Wf s) (h : s.exec e = some (s', r)) {job job' : Job}
    (hrow : s.db.jobs.get? id = some job) (hrow' : s'.db.jobs.get? id = some job')
    (hdrops : s.drops s' id = false) : StartChange s e id job job' := by
  have hchange := State.row_change hwf h id
  rw [hrow, hrow'] at hchange
  obtain ⟨hgen, hkey⟩ := drops_eq_false hrow hrow' hdrops
  cases hchange with
  | same | checkpointed | progressed | finished => exact .kept (.inl rfl) rfl rfl
  | queued _ _ hfree hq he =>
    obtain ⟨hrun, hlock, hattempts⟩ := queued_start hq hgen hkey
    exact .kept (.inl hrun) hlock hattempts
  | claimed _ he => exact .claimed (by simp [he, Event.claims])
  | unlocked _ hfree hlock hnow he =>
    refine .failed _ ?_ hlock rfl rfl
    rcases he with ⟨pool, error, rfl⟩ | ⟨pools, rfl⟩ <;> rfl
  | woken _ hfree hle ht hwake => exact .kept (.inr (by simpa [Job.setRunAt] using hwake)) rfl rfl
  | @retried _ k a now runAt t he ha hid howns hfree =>
    have hown := owned_eq_some_iff.mpr ⟨hid ▸ hrow, howns⟩
    apply StartChange.asked runAt
    simp only [State.asks, he, ha, Option.any_some, hid, decide_true, hown, Option.isSome_some,
      Bool.and_self, if_true]
  | exhausted _ hfree ht hwake =>
    exact .kept (by simpa [Job.exhaust, Job.setRunAt] using hwake) rfl rfl
  | suspended _ mid he htx ha hr hq =>
    obtain ⟨-, row, hrow₁, hown⟩ := State.owned_of_tx hwf htx ha
    obtain rfl : row = job := Option.some.inj (hrow₁.symm.trans hrow)
    obtain ⟨lock, hlock, -⟩ := owns_iff.mp (owned_eq_some_iff.mp hown).2
    apply StartChange.suspended (suspends_of_commit h he hr)
    change mid.lock.isSome = true
    rw [hq.lock, hlock]
    rfl
  | continued _ he htx ha hr hout =>
    have hnone : job.key = none := by
      by_contra hsome
      have hk : job.key.isSome = true := Option.isSome_iff_ne_none.mpr hsome
      apply hsome
      rw [← hkey]
      simp [Job.retired, hk, Job.exhaust, Job.superseded]
    have hretired : job.retired = job.exhaust := by simp [Job.retired, hnone]
    rw [hretired]
    exact .kept (.inl rfl) rfl rfl

/-- `scheduleRetry` aims the failure update at the time it was asked for. -/
theorem start_of_asks {t : Time} {job' : Job} (h : s.exec e = some (s', r))
    (he : s.asks e id = some t) (hrow' : s'.db.jobs.get? id = some job') :
    job'.lock.isSome ∧ job'.runAt + graphileBackoff job'.attempts = t := by
  cases e with
  | retry now k runAt =>
    obtain ⟨a, ha, -, -, hcases⟩ := State.retry_cases h
    simp only [State.asks, ha, Option.any_some] at he
    split at he
    · rename_i hguard
      simp only [Bool.and_eq_true, decide_eq_true_eq] at hguard
      obtain ⟨rfl, hown⟩ := hguard
      obtain rfl : runAt = t := Option.some.inj he
      obtain ⟨job, hjob⟩ := Option.isSome_iff_exists.mp hown
      obtain ⟨hrow, howns⟩ := owned_eq_some_iff.mp hjob
      obtain ⟨lock, hlock, -⟩ := owns_iff.mp howns
      rcases hcases with ⟨hnone, -⟩ | ⟨job₁, hjob₁, -, rfl⟩
      · simp [hjob] at hnone
      · obtain rfl : job = job₁ := Option.some.inj (hjob.symm.trans hjob₁)
        simp only [Db.updateJob_jobs, Table.get?_update, if_true, hrow, Option.map_some,
          Option.some.injEq] at hrow'
        subst hrow'
        simp [Job.setRunAt, hlock]
    · cases he
  | _ => cases he

/-! ## The bound -/

/-- Every promise is kept by the row's `run_at`. -/
def Retries.Bound (p : State × Retries) : Prop :=
  ∀ id job t, p.1.db.jobs.get? id = some job → p.2.due id job = some t → t ≤ job.startAt job.runAt

private theorem startAt_min (job : Job) (t t' : Time) :
    job.startAt (min t t') = min (job.startAt t) (job.startAt t') := by
  unfold Job.startAt
  split
  · exact (min_add_add_right t t' _).symm
  · rfl

/-- While no wait wakes the row too early, what it waits for stays behind its start. -/
private theorem bound_of_kept {job job' : Job} {t : Time} (hrow : s.db.jobs.get? id = some job)
    (hcond : wakesRetry (s, w) e = false) (hlock : job'.lock = job.lock)
    (hattempts : job'.attempts = job.attempts)
    (hrun : job'.runAt = job.runAt ∨
      ∃ now, s.wakesAt id e = some now ∧ job'.runAt = min job.runAt now)
    (hdue : w.due id job = some t) (hbound : t ≤ job.startAt job.runAt) :
    t ≤ job'.startAt job'.runAt := by
  have hstart : ∀ t, job'.startAt t = job.startAt t := by
    intro t
    simp only [Job.startAt, hlock, hattempts]
  rw [hstart]
  rcases hrun with hrun | ⟨now, hwake, hrun⟩
  · rw [hrun]
    exact hbound
  · rw [hrun, startAt_min]
    apply le_min hbound
    apply le_of_not_gt
    intro hearly
    have hany : wakesRetry (s, w) e = true :=
      Table.any_iff.mpr ⟨id, job, hrow, by simp [hwake, hdue, hearly]⟩
    rw [hcond] at hany
    cases hany

/-- The failure update lands on the time that the run asked for, or on the default backoff. -/
private theorem bound_of_failed {job job' : Job} {now t : Time} (hlock : job.lock.isSome)
    (hlock' : job'.lock = none)
    (hrun : job'.runAt = max now job.runAt + graphileBackoff job.attempts)
    (hbound : ∀ t, w.due id job = some t → t ≤ job.startAt job.runAt)
    (hpromise : w.promise id (now + graphileBackoff job.attempts) = some t) :
    t ≤ job'.startAt job'.runAt := by
  have hdefault : now + graphileBackoff job.attempts ≤ job'.runAt := by
    rw [hrun]
    exact add_le_add_left (le_max_left _ _) _
  have hstart : job'.startAt job'.runAt = job'.runAt := by simp [Job.startAt, hlock']
  rw [hstart]
  unfold Retries.promise at hpromise
  split at hpromise
  · rename_i asked hasked
    obtain rfl := Option.some.inj hpromise
    apply max_le _ hdefault
    have hle := hbound asked (by simp [Retries.due, hlock, hasked])
    simp only [Job.startAt, hlock, if_true] at hle
    apply hle.trans
    rw [hrun]
    exact add_le_add_left (le_max_right _ _) _
  · split at hpromise
    · cases hpromise
    · obtain rfl := Option.some.inj hpromise
      exact hdefault

theorem Retries.bound_exec (hwf : Wf s) (hinv : Retries.Bound (s, w))
    (hcond : wakesRetry (s, w) e = false) (h : s.exec e = some (s', r)) :
    Retries.Bound (s', w.note s e s') := by
  intro id job' t hrow' hdue
  simp only at hrow' hdue
  cases hdrops : s.drops s' id with
  | true => simp [Retries.due, Retries.note, hdrops] at hdue
  | false =>
    cases hclaims : e.claims id with
    | true => simp [Retries.due, Retries.note, hclaims] at hdue
    | false =>
      obtain ⟨job, hrow⟩ : ∃ job, s.db.jobs.get? id = some job := by
        cases hrow : s.db.jobs.get? id with
        | none => simp [State.drops, hrow] at hdrops
        | some job => exact ⟨job, rfl⟩
      cases hasks : s.asks e id with
      | some asked =>
        obtain ⟨hlock, hstart⟩ := start_of_asks h hasks hrow'
        have hunlocks : s.unlocks s' id = false := by
          simp [State.unlocks, hrow', hlock]
        obtain rfl : asked = t := by
          simpa [Retries.due, hlock, Retries.note, hdrops, hclaims, hunlocks, hasks] using hdue
        simp only [Job.startAt, hlock, if_true]
        exact hstart.ge
      | none =>
        cases start_change hwf h hrow hrow' hdrops with
        | claimed he => simp [he] at hclaims
        | asked t he => simp [he] at hasks
        | kept hrun hlock hattempts =>
          have hunlocks : s.unlocks s' id = false := by
            cases hl : job.lock <;> simp [State.unlocks, hrow, hrow', hlock, hl]
          have hdue' : w.due id job = some t := by
            rw [← hdue]
            simp only [Retries.due, hlock, Retries.note, hdrops, hclaims, hunlocks, hasks, hrow]
            cases e.failedAt <;> simp
          exact bound_of_kept hrow hcond hlock hattempts hrun hdue' (hinv id job t hrow hdue')
        | failed now he hlock hlock' hrun =>
          have hunlocks : s.unlocks s' id = true := by
            simp [State.unlocks, hrow, hrow', hlock, hlock']
          apply bound_of_failed hlock hlock' hrun (fun t => hinv id job t hrow)
          simpa [Retries.due, hlock', Retries.note, hdrops, hclaims, hunlocks, hrow, he] using hdue
        | suspended he hlock =>
          have hnone : w.asked id = none := by
            by_contra hsome
            have hany : wakesRetry (s, w) e = true := Table.any_iff.mpr
              ⟨id, job, hrow, by simp [he, Option.isSome_iff_ne_none.mpr hsome]⟩
            rw [hcond] at hany
            cases hany
          simp [Retries.due, hlock, Retries.note, hasks, hnone] at hdue

/--
While no finished wait group wakes a job before its retry time, the next attempt after a failed
one starts no earlier than the time of its `RetryAtError` and than the default backoff.
-/
theorem retry_not_before {p : State × Retries}
    (hreach : retries.ReachableWith (fun p e => wakesRetry p e = false) p) : RetriesKept p := by
  have hbound : Retries.Bound p := by
    refine (hreach.invariant (I := fun p => Wf p.1 ∧ Retries.Bound p) ?_ ?_).2
    · rintro ⟨s, w⟩ ⟨hs, hw⟩
      obtain rfl : s = State.initial := hs
      exact ⟨State.wf_initial, fun _ _ _ hrow => (by cases hrow)⟩
    · rintro ⟨s, w⟩ e ⟨s', w'⟩ - ⟨hwf, hinv⟩ hcond hstep
      obtain ⟨hstep, hw'⟩ := TransitionSystem.observe_step_iff.mp hstep
      obtain ⟨r, hexec⟩ := system_step_iff.mp hstep
      simp only at hw'
      subst hw'
      exact ⟨State.wf_exec hwf hexec, Retries.bound_exec hwf hinv hcond hexec⟩
  intro id job t hrow hlock hnot
  have hle : t ≤ job.runAt := by
    have h := hbound id job t hrow (by simpa [Retries.due, hlock] using hnot)
    simpa [Job.startAt, hlock] using h
  refine ⟨hle, fun now pool jobOutcomes s' r hclaim => ?_⟩
  obtain ⟨row, hrow', hclaimable, -⟩ := State.claim_cases hclaim
  obtain rfl : row = job := Option.some.inj (hrow'.symm.trans hrow)
  simp only [claimable, Bool.and_eq_true, decide_eq_true_eq] at hclaimable
  exact hle.trans hclaimable.1.2

/-! ## A parent that fails before it replays its wait -/

namespace RetryTrace

/-- An hour after the start. -/
def hour : Time := 3600000000

/-- A job asks for its retry in an hour and fails. -/
def failed : List Event :=
  [.addJob 0 ⟨"crawl", Payload.injectTraceContext none none, none, none, none, none, none, none,
      .replace⟩,
    .claim 0 "p" 1 false, .retry 0 0 hour, .failJob 0 "p" 1 "rate limited"]

/-- A parent is woken by its child, fails before it replays the wait, and the sweep runs. -/
def swept : List Event :=
  [.addJob 0 ⟨"crawl", Payload.injectTraceContext none none, none, none, none, none, none, none,
      .replace⟩,
    .claim 0 "p" 1 false, .waitBegin 0 0 (WakeupTrace.call "a"), .waitLookup 1,
    .waitCommit 1 [.add WakeupTrace.options], .failJob 0 "p" 1 "waiting", .claim 0 "q" 2 false,
    .settle 0 1 ⟨none, some (.ok none), .delete⟩ fun _ => true, .claim 0 "p" 1 false,
    .retry 0 2 hour, .failJob 0 "p" 1 "rate limited", .sweepWake 0]

/-- The unlocked row that waits for its retry in an hour. -/
def sleeping (p : State × Retries) (check : Job → Bool) : Bool :=
  p.2.notBefore 1 = some hour && (p.1.db.jobs.get? 1).any fun job => job.lock.isNone && check job

end RetryTrace

theorem retry_not_before_hour : ∃ (p : State × Retries) (job : Job),
    p.1.db.jobs.get? 1 = some job ∧ p.2.notBefore 1 = some RetryTrace.hour ∧
      RetryTrace.hour ≤ job.runAt := by
  have hinit : retries.Init (State.initial, .empty) := ⟨rfl, rfl⟩
  obtain ⟨p, hreach, hp⟩ := TransitionSystem.exists_reachableWith_of_runWith
    RetryTrace.failed (fun p => RetryTrace.sleeping p fun _ => true)
    (fun p e (hc : (!wakesRetry p e) = true) => (by simpa using hc : wakesRetry p e = false))
    hinit (by decide)
  simp only [RetryTrace.sleeping, Bool.and_eq_true, decide_eq_true_eq, Option.any_eq_true,
    Option.isNone_iff_eq_none] at hp
  obtain ⟨hnot, job, hrow, hlock, -⟩ := hp
  exact ⟨p, job, hrow, hnot, (retry_not_before hreach 1 job _ hrow hlock hnot).1⟩

/-- The sweep sets the parent's `run_at` to its own time, an hour before the retry time. -/
theorem sweep_wakes_retry : ∃ p job, retries.Reachable p ∧ p.1.db.jobs.get? 1 = some job ∧
    p.2.notBefore 1 = some RetryTrace.hour ∧ job.runAt = 0 ∧ ¬ RetriesKept p := by
  have hinit : retries.Init (State.initial, .empty) := ⟨rfl, rfl⟩
  obtain ⟨p, hreach, hp⟩ := TransitionSystem.exists_reachable_of_run
    RetryTrace.swept (fun p => RetryTrace.sleeping p fun job => job.runAt = 0) hinit (by decide)
  simp only [RetryTrace.sleeping, Bool.and_eq_true, decide_eq_true_eq, Option.any_eq_true,
    Option.isNone_iff_eq_none] at hp
  obtain ⟨hnot, job, hrow, hlock, hrun⟩ := hp
  refine ⟨p, job, hreach, hrow, hnot, hrun, fun hkept => ?_⟩
  have hle := (hkept 1 job _ hrow hlock hnot).1
  rw [hrun] at hle
  exact absurd hle (by decide)

end BetterGraphileWorker
