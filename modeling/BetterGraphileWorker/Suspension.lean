-- SUMMARY: Suspension bookkeeping: the attempt that a suspended run gets back, and where its failure update leaves run_at.
import Mathlib.Algebra.Order.Group.MinMax
import Mathlib.Data.List.ReduceOption
import BetterGraphileWorker.Fencing
import BetterGraphileWorker.RetryTime

/-!
# Suspension bookkeeping

A run that suspends at a wait ends with a failure update like any other. Its first
suspension gives the attempt back and aims `run_at` so far before the deadline that the
update lands on it; later suspensions and reports lower `run_at`. The history keeps what a
run's suspensions were, next to the row that they write.
-/

namespace BetterGraphileWorker

/-- The waits that suspended the run which holds a row, and what has happened since. -/
structure Suspensions where
  /-- The attempts of the row, as its claim or a keyed re-add before any suspension left them. -/
  charged : JobId → ℤ
  /-- The deadlines of the waits, the latest first. -/
  deadlines : JobId → List (Option Time)
  /-- The earliest `now()` of the reports that have finished a group of the row since. -/
  wokenAt : JobId → Option Time
  /-- `RetryAtError` or a keyed re-add has written the row since. -/
  overwritten : JobId → Bool

def Suspensions.start : Suspensions := ⟨fun _ => 0, fun _ => [], fun _ => none, fun _ => false⟩

/-- The deadline of the wait that the step suspends the row's run on. -/
def State.suspendsOn (s : State) (e : Event) (s' : State) (id : JobId) : Option (Option Time) :=
  if s.suspends e id then
    match s.txs.get? id with
    | some ⟨_, _, .waitLooked call _ _⟩ => (s'.db.groups.get? (id, call.waitId)).map (·.deadline)
    | _ => none
  else none

namespace Suspensions

def note (s : State) (e : Event) (s' : State) (w : Suspensions) : Suspensions where
  charged id :=
    if e.claims id || s.drops s' id && (w.deadlines id).isEmpty then
      ((s'.db.jobs.get? id).map (·.attempts)).getD 0
    else w.charged id
  deadlines id :=
    if e.claims id then []
    else match s.suspendsOn e s' id with
      | some deadline => deadline :: w.deadlines id
      | none => w.deadlines id
  wokenAt id :=
    if e.claims id || (w.deadlines id).isEmpty then none
    else match s.wakesAt id e with
      | some now => some ((w.wokenAt id).elim now (min now))
      | none => w.wokenAt id
  overwritten id :=
    !e.claims id && (w.overwritten id ||
      (s.drops s' id || (s.asks e id).isSome) &&
        (!(w.deadlines id).isEmpty || s.suspends e id))

end Suspensions

/-- The system with the history of its suspensions. -/
def suspensions : TransitionSystem (State × Suspensions) Event :=
  system.observe .start Suspensions.note

/-! ## Deadlines -/

/-- The earliest of some times, or the year 9999. -/
def earliest (times : List Time) : Time := times.min?.getD noDeadline

/-- The earliest deadline of some waits, or the year 9999 if none has one. -/
def earliestDeadline (deadlines : List (Option Time)) : Time := earliest deadlines.reduceOption

/-- Where suspensions aim `run_at`: a wait without a deadline counts as the year 9999. -/
def aim (deadlines : List (Option Time)) : Time := earliest (deadlines.map (·.getD noDeadline))

section
variable {t : Time} {times : List Time} {deadline : Option Time} {deadlines : List (Option Time)}

theorem earliest_mem (h : times ≠ []) : earliest times ∈ times := by
  obtain ⟨t, ht⟩ := Option.isSome_iff_exists.mp (List.isSome_min?_of_ne_nil h)
  rw [earliest, ht]
  exact List.min?_mem ht

theorem earliest_le (h : t ∈ times) : earliest times ≤ t := by
  obtain ⟨least, hleast⟩ := Option.isSome_iff_exists.mp (List.isSome_min?_of_mem h)
  rw [earliest, hleast]
  exact (List.min?_eq_some_iff.mp hleast).2 t h

theorem aim_singleton : aim [deadline] = deadline.getD noDeadline := by
  simp [aim, earliest]

theorem aim_cons (h : deadlines ≠ []) :
    aim (deadline :: deadlines) = min (deadline.getD noDeadline) (aim deadlines) := by
  have hne : deadlines.map (·.getD noDeadline) ≠ [] := by simpa using h
  obtain ⟨least, hleast⟩ := Option.isSome_iff_exists.mp (List.isSome_min?_of_ne_nil hne)
  simp [aim, earliest, List.min?_cons, hleast]

/-- The aim is the earliest deadline, unless a wait without one comes before it. -/
theorem aim_eq : aim deadlines =
    if none ∈ deadlines then min noDeadline (earliestDeadline deadlines)
    else earliestDeadline deadlines := by
  split
  · rename_i hnone
    have haim : noDeadline ∈ deadlines.map (·.getD noDeadline) := List.mem_map.mpr ⟨none, hnone, rfl⟩
    apply le_antisymm
    · apply le_min (earliest_le haim)
      by_cases hempty : deadlines.reduceOption = []
      · rw [earliestDeadline, hempty]
        exact earliest_le haim
      · have hmem := List.reduceOption_mem_iff.mp (earliest_mem hempty)
        exact earliest_le (List.mem_map.mpr ⟨_, hmem, rfl⟩)
    · obtain ⟨deadline, hmem, hdeadline⟩ := List.mem_map.mp (earliest_mem (List.ne_nil_of_mem haim))
      rw [aim, ← hdeadline]
      cases deadline with
      | none => exact min_le_left _ _
      | some t => exact (min_le_right _ _).trans (earliest_le (List.reduceOption_mem_iff.mpr hmem))
  · rename_i hnone
    have hsome : deadlines.map (·.getD noDeadline) = deadlines.reduceOption := by
      induction deadlines with
      | nil => rfl
      | cons deadline deadlines ih =>
        cases deadline with
        | none => simp at hnone
        | some t => simpa using ih (List.not_mem_of_not_mem_cons hnone)
    rw [aim, hsome]
    rfl

end

/-! ## The commit of a suspension -/

variable {s s' : State} {e : Event} {r : Reply} {id : JobId} {w : Suspensions}

/-- The step suspends the run of attempt `k`; `mid` is its row once the children are enqueued. -/
structure Suspends (s : State) (e : Event) (s' : State) (id : JobId) (k : ℕ) (a : Attempt)
    (job mid : Job) (deadline : Option Time) : Prop where
  attempt : s.attempts.get? k = some a
  tx : ∃ now call found, s.txs.get? id = some ⟨k, now, .waitLooked call a.ended.isSome found⟩
  jobId : a.job.id = id
  notContinued : a.ended.any (·.isContinued) = false
  row : s.db.jobs.get? id = some job
  locked : job.lock.isSome
  queued : Queued job mid
  row' : s'.db.jobs.get? id = some (mid.suspend deadline (if a.ended.isSome then 0 else 1))
  attempt' : ∃ waitId, s'.attempts.get? k = some { a with ended := a.ended <|> some (.waiting waitId) }
  deadline : s.suspendsOn e s' id = some deadline
  claims : e.claims id = false
  asks : s.asks e id = none
  wakes : s.wakesAt id e = none

theorem suspends_cases (hwf : Wf s) (h : s.exec e = some (s', r)) (hsuspends : s.suspends e id = true) :
    ∃ k a job mid deadline, Suspends s e s' id k a job mid deadline := by
  have hon := hsuspends
  cases e with
  | waitCommit id' prepared =>
    simp only [State.suspends, Bool.and_eq_true, decide_eq_true_eq] at hon
    obtain ⟨rfl, hon⟩ := hon
    rw [h] at hon
    obtain ⟨k, now, call, suspended, found, a, htx, ha, hprep, ⟨-, rfl, -⟩ |
      ⟨db, entered, hok, rfl, rfl⟩⟩ := State.waitCommit_cases h
    · cases hon
    obtain rfl : entered = .suspended := by
      cases entered with
      | finished => cases hon
      | suspended => rfl
    obtain ⟨hid, job, hrow, hown⟩ := State.owned_of_tx hwf htx ha
    obtain ⟨lock, hlock, -⟩ := owns_iff.mp (owned_eq_some_iff.mp hown).2
    obtain ⟨a', -, ha', -, -, -, -, -, hcontinued, hended, -, hfound⟩ := hwf.tx id' _ htx
    obtain rfl : a' = a := Option.some.inj (ha'.symm.trans ha)
    -- In both cases the group is there after the commit, and the row suspends on it.
    have hgroup : ∃ mid group, Queued job mid ∧ db.groups.get? (id', call.waitId) = some group ∧
        db.jobs.get? id' = some (mid.suspend group.deadline (if suspended then 0 else 1)) := by
      cases found with
      | none =>
        rw [enterWait_missing, hid] at hok
        obtain ⟨rfl, -⟩ := Prod.mk.inj (Except.ok.inj hok)
        obtain ⟨mid, hqueued, hmid⟩ :=
          State.createWait_row now (id', call.waitId) call prepared hwf.idsBelow hrow
        obtain ⟨hgroups, -, -⟩ := createWait_tables now (id', call.waitId) hwf.idsBelow (hprep rfl).1
        have hget : (createWait now (id', call.waitId) call prepared s.db).1.groups.get?
            (id', call.waitId) = some (call.newGroup now) := by
          rw [hgroups, Table.get?_insert_self]
        exact ⟨mid, _, hqueued, by simpa using hget, by simp [get?_suspendJob hget, hmid]⟩
      | some group =>
        obtain ⟨checkpoint, -, hne, -⟩ | ⟨-, -, -, rfl⟩ := enterWait_found hok
        · cases hne
        · obtain ⟨row, hget, -⟩ := Option.map_eq_some_iff.mp hfound.symm
          rw [hid]
          exact ⟨job, row, .refl job, by simpa using hget, by simp [get?_suspendJob hget, hrow]⟩
    obtain ⟨mid, group, hqueued, hget, hrow'⟩ := hgroup
    subst hended
    exact ⟨k, a', job, mid, group.deadline, ha, ⟨now, call, found, htx⟩, hid, hcontinued, hrow,
      by simp [hlock], hqueued, hrow', ⟨call.waitId, Table.get?_insert_self⟩, by simp [State.suspendsOn, hsuspends, htx, hget], rfl, rfl, rfl⟩
  | _ => cases hon

theorem suspendsOn_eq_none (h : s.suspends e id = false) : s.suspendsOn e s' id = none := by
  simp [State.suspendsOn, h]

/-! ## Rows that do not suspend -/

/-- What a step without a suspension does to the attempts of a row. -/
inductive ChargeChange (s : State) (e : Event) (s' : State) (id : JobId) (job job' : Job) : Prop where
  | kept (hattempts : job'.attempts = job.attempts)
      (hmax : job'.maxAttempts = job.maxAttempts ∨ job'.maxAttempts = job.attempts)
      (hlock : job'.lock = job.lock ∨ job'.lock = none)
  | claimed (he : e.claims id = true) (hlive : job.live = true) (hlock : job.lock = none)
      (hattempts : job'.attempts = job.attempts + 1) (hmax : job'.maxAttempts = job.maxAttempts)
  | spent (hdrops : s.drops s' id = true) (hattempts : job'.attempts = job.maxAttempts)
      (hmax : job'.maxAttempts = job.maxAttempts) (hlock : job'.lock = job.lock)
  | replaced (hlock : job'.lock = none) (hattempts : job'.live = true → job'.attempts = 0)

private theorem drops_of_key {job job' : Job} (hrow : s.db.jobs.get? id = some job)
    (hrow' : s'.db.jobs.get? id = some job') (hkey : job'.key ≠ job.key) : s.drops s' id = true := by
  simp [State.drops, hrow, hrow', hkey]

private theorem charge_queued {job job' : Job} (hrow : s.db.jobs.get? id = some job)
    (hrow' : s'.db.jobs.get? id = some job') (hq : Queued job job') :
    ChargeChange s e s' id job job' := by
  have hlock := hq.lock
  obtain ⟨mid, hr, hjob'⟩ := hq
  have hmid : job'.attempts = mid.attempts ∧ job'.maxAttempts = mid.maxAttempts ∧
      job'.key = mid.key ∧ job'.live = mid.live := by
    rcases hjob' with rfl | ⟨-, rfl⟩ <;> exact ⟨rfl, rfl, rfl, rfl⟩
  obtain ⟨hattempts, hmax, hkey, hlive⟩ := hmid
  by_cases hgen : mid.generation = job.generation
  · rcases hr.kept hgen with rfl | rfl
    · exact .kept hattempts (.inl hmax) (.inl hlock)
    · by_cases hnone : job.key = none
      · -- Without a key there is nothing to take, so the row is unchanged.
        have hsame : job.superseded = job := hr.keyless hnone
        rw [hsame] at hattempts hmax
        exact .kept hattempts (.inl hmax) (.inl hlock)
      · exact .spent (drops_of_key hrow hrow' (by simpa [hkey, Job.superseded] using Ne.symm hnone))
          hattempts hmax hlock
  · refine .replaced ?_ fun h => hattempts.trans (hr.restarted hgen (hlive ▸ h))
    rw [hlock]
    by_contra hsome
    exact hgen (hr.locked (Option.isSome_iff_ne_none.mpr hsome))

theorem charge_change (hwf : Wf s) (h : s.exec e = some (s', r)) {job job' : Job}
    (hrow : s.db.jobs.get? id = some job) (hrow' : s'.db.jobs.get? id = some job')
    (hsuspends : s.suspends e id = false) : ChargeChange s e s' id job job' := by
  have hchange := State.row_change hwf h id
  rw [hrow, hrow'] at hchange
  cases hchange with
  | same | checkpointed | progressed | woken | retried | finished =>
    exact .kept rfl (.inl rfl) (.inl rfl)
  | queued _ _ hfree hq he => exact charge_queued hrow hrow' hq
  | claimed _ he hfree hclaim =>
    simp only [claimable, Job.available, Bool.and_eq_true, Option.isNone_iff_eq_none] at hclaim
    exact .claimed (by simp [he, Event.claims]) hclaim.1.1.2 hclaim.1.1.1 rfl rfl
  | unlocked => exact .kept rfl (.inl rfl) (.inr rfl)
  | exhausted => exact .kept rfl (.inr rfl) (.inl rfl)
  | suspended _ mid he htx ha hr hq =>
    rw [suspends_of_commit h he hr] at hsuspends
    cases hsuspends
  | continued _ he htx ha hr hout =>
    cases hkey : job.key with
    | none =>
      refine .kept ?_ (.inr ?_) (.inl Job.retired_lock) <;> simp [Job.retired, hkey, Job.exhaust]
    | some key =>
      refine .spent (drops_of_key hrow hrow' ?_) ?_ ?_ Job.retired_lock
      · rw [Job.retired_key, hkey]
        simp
      all_goals simp [Job.retired, hkey, Job.exhaust, Job.superseded]

/-- A report that wakes a locked row leaves the earlier of the two times. -/
theorem runAt_of_wakesAt {now : Time} {job job' : Job} (h : s.exec e = some (s', r))
    (hwakes : s.wakesAt id e = some now) (hrow : s.db.jobs.get? id = some job)
    (hlock : job.lock.isSome) (hrow' : s'.db.jobs.get? id = some job') :
    job'.runAt = min job.runAt now := by
  have hreported : ∀ {report}, ReportedBy s e now report →
      s.db.wakesParent (s.db.reported report) id = true → job'.runAt = min job.runAt now := by
    intro report he hwakes
    obtain ⟨row, hget, hrun⟩ := row_of_reportedBy h he hrow'
    rw [get?_reportWaits_jobs, hrow, Option.map_some, Option.some.injEq] at hget
    rw [hrun, ← hget, if_pos hwakes]
    rfl
  cases e with
  | settle now' k settle visible =>
    simp only [State.wakesAt, Option.ite_none_right_eq_some, Option.any_eq_true, Bool.and_eq_true,
      Option.isSome_iff_exists, Option.some.injEq] at hwakes
    obtain ⟨⟨a, ha, ⟨owned, hown⟩, report, hreport, hwakes⟩, rfl⟩ := hwakes
    exact hreported (.inl ⟨k, a, owned, settle, visible, report, rfl, ha, hown, hreport, rfl⟩) hwakes
  | sweepLost now' seen skipped =>
    simp only [State.wakesAt, Option.ite_none_right_eq_some, Option.some.injEq] at hwakes
    obtain ⟨hwakes, rfl⟩ := hwakes
    exact hreported (.inr ⟨seen, skipped, rfl, rfl⟩) hwakes
  | sweepWake now' =>
    -- The sweep repairs unlocked rows only.
    obtain ⟨lock, hlock⟩ := Option.isSome_iff_exists.mp hlock
    simp [State.wakesAt, hrow, Job.available, hlock] at hwakes
  | _ => cases hwakes

/-- A row that is locked after a step other than its claim was locked before. -/
theorem locked_before (hwf : Wf s) (h : s.exec e = some (s', r)) {job' : Job}
    (hrow' : s'.db.jobs.get? id = some job') (hlock' : job'.lock.isSome) (hclaims : e.claims id = false) :
    ∃ job, s.db.jobs.get? id = some job ∧ job.lock = job'.lock := by
  have hchange := State.row_change hwf h id
  rw [hrow'] at hchange
  generalize hrow : s.db.jobs.get? id = before at hchange
  cases hchange with
  | inserted _ hid hlock => simp [hlock] at hlock'
  | continuation he htx hid hr => cases hlock'
  | claimed _ he => simp [he, Event.claims] at hclaims
  | unlocked => cases hlock'
  | queued job _ hfree hq => exact ⟨job, rfl, hq.lock.symm⟩
  | suspended job mid he htx ha hr hq => exact ⟨job, rfl, hq.lock.symm⟩
  | continued job => exact ⟨job, rfl, Job.retired_lock.symm⟩
  | same => exact ⟨job', rfl, rfl⟩
  | checkpointed job | progressed job | woken job | retried job | exhausted job | finished job =>
    exact ⟨job, rfl, rfl⟩

/-- A claim finds its row available and counts the attempt. -/
theorem claimed_row (h : s.exec e = some (s', r)) (he : e.claims id = true) {job job' : Job}
    (hrow : s.db.jobs.get? id = some job) (hrow' : s'.db.jobs.get? id = some job') :
    job.lock = none ∧ job.live = true ∧ job'.attempts = job.attempts + 1 ∧
      job'.maxAttempts = job.maxAttempts := by
  cases e with
  | claim now pool id' jobOutcomes =>
    obtain rfl : id' = id := by simpa [Event.claims] using he
    obtain ⟨row, hrow₁, hclaim, -, -, -, rfl⟩ := State.claim_cases h
    obtain rfl : row = job := Option.some.inj (hrow₁.symm.trans hrow)
    obtain rfl : row.lockFor ⟨pool, now⟩ = job' := by simpa [hrow] using hrow'
    simp only [claimable, Job.available, Bool.and_eq_true, Option.isNone_iff_eq_none] at hclaim
    exact ⟨hclaim.1.1.1, hclaim.1.1.2, rfl, rfl⟩
  | _ => cases he

theorem not_claims_of_locked (h : s.exec e = some (s', r)) {job : Job}
    (hrow : s.db.jobs.get? id = some job) (hlock : job.lock.isSome) : e.claims id = false := by
  by_contra hclaims
  have he : e.claims id = true := by simpa using hclaims
  cases e with
  | claim now pool id' jobOutcomes =>
    obtain rfl : id' = id := by simpa [Event.claims] using he
    obtain ⟨row, hrow₁, -, -, -, -, rfl⟩ := State.claim_cases h
    obtain rfl : row = job := Option.some.inj (hrow₁.symm.trans hrow)
    have hrow' : (getJob now pool id' row s.db).jobs.get? id' = some (row.lockFor ⟨pool, now⟩) := by
      simp [hrow]
    obtain ⟨hnone, -⟩ := claimed_row h he hrow hrow'
    simp [hnone] at hlock
  | _ => cases he

/-! ## The invariant -/

namespace Suspensions

/-- A running row has an attempt to give back until its run suspends. -/
def Counted (deadlines : List (Option Time)) (job : Job) : Prop :=
  (job.lock.isSome → 0 ≤ job.attempts ∧ 0 ≤ job.maxAttempts ∧
    (deadlines = [] → 0 < job.attempts ∧ 0 < job.maxAttempts)) ∧
  (job.lock = none → job.live = true → 0 ≤ job.attempts)

/-- A time, or the earlier one at which the row was woken. -/
def lowered (woken : Option Time) (t : Time) : Time := woken.elim t (min t)

private theorem lowered_min {woken : Option Time} {t now : Time} :
    min (lowered woken t) now = lowered (some (woken.elim now (min now))) t := by
  cases woken with
  | none => rfl
  | some t' => exact (min_assoc t t' now).trans (congrArg (min t) (min_comm t' now))

private theorem lowered_sub {woken : Option Time} {t t' backoff : Time} :
    min (lowered woken (t - backoff)) (t' - backoff) = lowered woken (min t' t - backoff) := by
  have hmin : min (t - backoff) (t' - backoff) = min t' t - backoff := by
    rw [min_sub_sub_right, min_comm]
  cases woken with
  | none => exact hmin
  | some now => exact (min_right_comm _ now _).trans (congrArg (min · now) hmin)

structure Inv (p : State × Suspensions) : Prop where
  /-- The run that holds the row has ended at a wait if and only if a wait suspended it. -/
  ended : ∀ k a job, p.1.attempts.get? k = some a → p.1.db.jobs.get? a.job.id = some job →
    job.lock = some a.lock → (p.2.deadlines a.job.id = [] ↔ ∀ waitId, a.ended ≠ some (.waiting waitId))
  charged : ∀ id job, p.1.db.jobs.get? id = some job → job.lock.isSome → p.2.overwritten id = false →
    job.attempts = p.2.charged id - if p.2.deadlines id = [] then 0 else 1
  aimed : ∀ id job, p.1.db.jobs.get? id = some job → job.lock.isSome → p.2.overwritten id = false →
    p.2.deadlines id ≠ [] →
    job.runAt = lowered (p.2.wokenAt id) (aim (p.2.deadlines id) - graphileBackoff job.attempts)
  counted : ∀ id job, p.1.db.jobs.get? id = some job → Counted (p.2.deadlines id) job

variable {job job' mid : Job} {k : ℕ} {a : Attempt} {deadline : Option Time}

theorem note_of_suspends (hs : Suspends s e s' id k a job mid deadline) :
    (w.note s e s').deadlines id = deadline :: w.deadlines id := by
  simp [note, hs.claims, hs.deadline]

theorem note_of_claims (he : e.claims id = true) : (w.note s e s').deadlines id = [] := by
  simp [note, he]

theorem note_of_kept (he : e.claims id = false) (hsuspends : s.suspends e id = false) :
    (w.note s e s').deadlines id = w.deadlines id := by
  simp [note, he, suspendsOn_eq_none hsuspends]

/-- An attempt that suspends holds the row, so its first suspension is the row's first. -/
private theorem first_iff (hwf : Wf s) (hinv : Inv (s, w)) (hdist : DistinctLocks s)
    (hs : Suspends s e s' id k a job mid deadline) : a.ended.isSome = false ↔ w.deadlines id = [] := by
  obtain ⟨now, call, found, htx⟩ := hs.tx
  obtain ⟨-, row, hrow, hown⟩ := State.owned_of_tx hwf htx hs.attempt
  have hlock := lock_of_owned hwf hdist hs.attempt hown
  have hended := hinv.ended k a row hs.attempt (hs.jobId ▸ hrow) hlock
  rw [hs.jobId] at hended
  have hcontinued := hs.notContinued
  rw [hended]
  cases hend : a.ended with
  | none => simp
  | some ending =>
    cases ending with
    | continued next => simp [hend, Ending.isContinued] at hcontinued
    | waiting waitId => simp

/-- Only the commit of a suspension makes an attempt end at a wait. -/
private theorem waiting_kept (hwf : Wf s) (h : s.exec e = some (s', r)) {a' : Attempt}
    (ha : s.attempts.get? k = some a) (ha' : s'.attempts.get? k = some a')
    (hsuspends : s.suspends e a.job.id = false) (waitId : String) :
    a'.ended = some (.waiting waitId) ↔ a.ended = some (.waiting waitId) := by
  have hchange := State.attempt_change h k
  rw [ha, ha'] at hchange
  cases hchange with
  | same | checkpointed | progressed | called => rfl
  | started _ he hk => exact absurd (hwf.attemptBelow k a ha).1 (by simp [hk])
  | continued _ he htx hr => cases a.ended <;> simp
  | left _ he htx hr =>
    rename_i entered
    cases entered with
    | finished checkpoint => rfl
    | suspended =>
      obtain ⟨hid, -⟩ := State.owned_of_tx hwf htx ha
      rw [hid, suspends_of_commit h he hr] at hsuspends
      cases hsuspends

private theorem ended_exec (hwf : Wf s) (hinv : Inv (s, w)) (hdist : DistinctLocks s)
    (hdist' : DistinctLocks s') (h : s.exec e = some (s', r)) {a' : Attempt}
    (ha' : s'.attempts.get? k = some a') (hrow' : s'.db.jobs.get? a'.job.id = some job')
    (hlock' : job'.lock = some a'.lock) :
    (w.note s e s').deadlines a'.job.id = [] ↔ ∀ waitId, a'.ended ≠ some (.waiting waitId) := by
  rcases holder_cases hwf hdist' h ha' hrow' hlock' with
    ⟨now, pool, jobOutcomes, job, he, -, -, -, -, -, -, hended⟩ |
    ⟨a, job, ha, hjob, hgiven, hrow, hlock⟩
  · have hclaims : e.claims a'.job.id = true := by simp [he, Event.claims]
    simp [note_of_claims hclaims, hended]
  rw [hjob]
  have hclaims := not_claims_of_locked h hrow (by simp [hlock])
  cases hsuspends : s.suspends e a.job.id with
  | false =>
    rw [note_of_kept hclaims hsuspends, hinv.ended k a job ha hrow hlock]
    simp only [ne_eq, waiting_kept hwf h ha ha' hsuspends]
  | true =>
    obtain ⟨k₂, a₂, row, mid, deadline, hs⟩ := suspends_cases hwf h hsuspends
    -- The transaction belongs to the attempt that holds the row.
    obtain ⟨now, call, found, htx⟩ := hs.tx
    obtain ⟨-, row₂, hrow₂, hown⟩ := State.owned_of_tx hwf htx hs.attempt
    have hlock₂ := lock_of_owned hwf hdist hs.attempt hown
    obtain rfl : row₂ = job := Option.some.inj (hrow₂.symm.trans hrow)
    obtain rfl : k₂ = k := holds_unique hwf hdist hs.attempt ha hs.jobId
      (Option.some.inj (hlock₂.symm.trans hlock))
    obtain rfl : a₂ = a := Option.some.inj (hs.attempt.symm.trans ha)
    obtain ⟨waitId, hattempt⟩ := hs.attempt'
    obtain rfl := Option.some.inj (ha'.symm.trans hattempt)
    rw [note_of_suspends hs]
    have hcontinued := hs.notContinued
    simp only [reduceCtorEq, ne_eq, false_iff, not_forall, not_not]
    cases hend : a₂.ended with
    | none => exact ⟨waitId, rfl⟩
    | some ending =>
      cases ending with
      | continued next => simp [hend, Ending.isContinued] at hcontinued
      | waiting waitId' => exact ⟨waitId', rfl⟩

/-- Where nothing overwrites the row, the suspension finds it as it was. -/
private theorem suspended_row (hwf : Wf s) (hinv : Inv (s, w)) (hdist : DistinctLocks s)
    (hs : Suspends s e s' id k a job mid deadline) (hsuspends : s.suspends e id = true)
    (hover : (w.note s e s').overwritten id = false) :
    w.overwritten id = false ∧ (w.note s e s').charged id = w.charged id ∧
      s'.db.jobs.get? id = some (mid.suspend deadline (if w.deadlines id = [] then 1 else 0)) ∧
      mid.attempts = job.attempts ∧ mid.runAt = job.runAt := by
  simp only [note, hs.claims, hs.asks, hsuspends, Bool.not_false, Bool.true_and, Option.isSome_none,
    Bool.or_false, Bool.or_true, Bool.and_true, Bool.or_eq_false_iff] at hover
  obtain ⟨hover, hdrops⟩ := hover
  have hrow' := hs.row'
  obtain ⟨hgen, hkey⟩ : mid.generation = job.generation ∧ mid.key = job.key := by
    simpa [State.drops, hs.row, hrow', Job.suspend] using hdrops
  obtain ⟨hrun, -, hattempts⟩ := queued_start hs.queued hgen hkey
  refine ⟨hover, by simp [note, hs.claims, hdrops], ?_, hattempts, hrun⟩
  rw [hrow']
  have hfirst := first_iff hwf hinv hdist hs
  by_cases hempty : w.deadlines id = []
  · simp [hfirst.mpr hempty, hempty]
  · have hsome : a.ended.isSome = true := by
      by_contra hne
      exact hempty (hfirst.mp (by simpa using hne))
    simp [hsome, hempty]

private theorem charged_exec (hwf : Wf s) (hinv : Inv (s, w)) (hdist : DistinctLocks s)
    (h : s.exec e = some (s', r)) (hrow' : s'.db.jobs.get? id = some job') (hlock' : job'.lock.isSome)
    (hover : (w.note s e s').overwritten id = false) :
    job'.attempts = (w.note s e s').charged id -
      if (w.note s e s').deadlines id = [] then 0 else 1 := by
  cases hclaims : e.claims id with
  | true => simp [note, hclaims, hrow']
  | false =>
  obtain ⟨job, hrow, hlock⟩ := locked_before hwf h hrow' hlock' hclaims
  rw [← hlock] at hlock'
  cases hsuspends : s.suspends e id with
  | true =>
    obtain ⟨k, a, row, mid, deadline, hs⟩ := suspends_cases hwf h hsuspends
    obtain rfl : row = job := Option.some.inj (hs.row.symm.trans hrow)
    obtain ⟨hover, hcharged, hsuspended, hattempts, -⟩ := suspended_row hwf hinv hdist hs hsuspends hover
    obtain rfl := Option.some.inj (hrow'.symm.trans hsuspended)
    have hbefore : row.attempts = w.charged id - if w.deadlines id = [] then 0 else 1 :=
      hinv.charged id row hrow hlock' hover
    rw [hcharged, note_of_suspends hs, if_neg (List.cons_ne_nil _ _)]
    change mid.attempts - _ = _
    rw [hattempts, hbefore]
    split <;> omega
  | false =>
    rw [note_of_kept hclaims hsuspends]
    by_cases hreadded : (s.drops s' id && (w.deadlines id).isEmpty) = true
    · -- The re-add charges the row anew.
      obtain ⟨hdrops, hempty⟩ := Bool.and_eq_true_iff.mp hreadded
      simp only [List.isEmpty_iff] at hempty
      simp [note, hdrops, hrow', hempty]
    have hcharged : (w.note s e s').charged id = w.charged id := by
      simp only [note, hclaims, Bool.false_or, if_neg hreadded]
    simp only [note, hclaims, Bool.not_false, Bool.true_and, Bool.or_eq_false_iff] at hover
    have hbefore := hinv.charged id job hrow hlock' hover.1
    rw [hcharged, ← hbefore]
    cases charge_change hwf h hrow hrow' hsuspends with
    | kept hattempts => exact hattempts
    | claimed he => simp [he] at hclaims
    | spent hdrops =>
      have hsuspended : (w.deadlines id).isEmpty = false := by simpa [hdrops] using hreadded
      simp [hdrops, hsuspended] at hover
    | replaced hnone => simp [hlock, hnone] at hlock'

private theorem aimed_exec (hwf : Wf s) (hinv : Inv (s, w)) (hdist : DistinctLocks s)
    (h : s.exec e = some (s', r)) (hrow' : s'.db.jobs.get? id = some job') (hlock' : job'.lock.isSome)
    (hover : (w.note s e s').overwritten id = false) (hne : (w.note s e s').deadlines id ≠ []) :
    job'.runAt = lowered ((w.note s e s').wokenAt id)
      (aim ((w.note s e s').deadlines id) - graphileBackoff job'.attempts) := by
  have hclaims : e.claims id = false := by
    by_contra hne'
    exact hne (note_of_claims (by simpa using hne'))
  obtain ⟨job, hrow, hlock⟩ := locked_before hwf h hrow' hlock' hclaims
  rw [← hlock] at hlock'
  cases hsuspends : s.suspends e id with
  | true =>
    obtain ⟨k, a, row, mid, deadline, hs⟩ := suspends_cases hwf h hsuspends
    obtain rfl : row = job := Option.some.inj (hs.row.symm.trans hrow)
    obtain ⟨hover, -, hsuspended, hattempts, hrun⟩ := suspended_row hwf hinv hdist hs hsuspends hover
    obtain rfl := Option.some.inj (hrow'.symm.trans hsuspended)
    rw [note_of_suspends hs]
    by_cases hempty : w.deadlines id = []
    · simp [note, hs.claims, hempty, Job.suspend, aim_singleton, lowered]
    · have hbefore := hinv.aimed id row hrow hlock' hover hempty
      have hwoken : (w.note s e s').wokenAt id = w.wokenAt id := by
        simp [note, hs.claims, hs.wakes, hempty]
      simp only [hwoken, if_neg hempty, Job.suspend, if_neg Int.zero_ne_one, Int.sub_zero,
        aim_cons hempty]
      rw [hrun, hbefore, hattempts, lowered_sub]
  | false =>
    rw [note_of_kept hclaims hsuspends] at hne ⊢
    have hempty : (w.deadlines id).isEmpty = false := by simpa using hne
    simp only [note, hclaims, hempty, Bool.not_false, Bool.true_and, Bool.true_or, Bool.and_true,
      Bool.or_eq_false_iff, Option.isSome_eq_false_iff, Option.isNone_iff_eq_none] at hover
    obtain ⟨hover, hdrops, hasks⟩ := hover
    have hbefore := hinv.aimed id job hrow hlock' hover hne
    cases start_change hwf h hrow hrow' hdrops with
    | kept hrun hlock hattempts =>
      have hwoken : (w.note s e s').wokenAt id =
          match s.wakesAt id e with
          | some now => some ((w.wokenAt id).elim now (min now))
          | none => w.wokenAt id := by
        simp only [note, hclaims, hempty, Bool.or_false, Bool.false_eq_true, if_false]
      rw [hwoken, hattempts]
      cases hwakes : s.wakesAt id e with
      | none =>
        rcases hrun with hrun | ⟨now, hwake, -⟩
        · rw [hrun, hbefore]
        · simp [hwakes] at hwake
      | some now =>
        rw [runAt_of_wakesAt h hwakes hrow hlock' hrow', hbefore]
        exact lowered_min
    | claimed he => simp [he] at hclaims
    | failed now he hlocked hnone => simp [hlock, hnone] at hlock'
    | asked t he => simp [he] at hasks
    | suspended he => simp [he] at hsuspends

private theorem counted_of_suspends (hwf : Wf s) (hinv : Inv (s, w)) (hdist : DistinctLocks s)
    (hs : Suspends s e s' id k a job mid deadline) :
    Counted (deadline :: w.deadlines id) (mid.suspend deadline (if a.ended.isSome then 0 else 1)) := by
  obtain ⟨hattempts, hmax, hspare⟩ := (hinv.counted id job hs.row).1 hs.locked
  -- The children's keys leave the row its attempts, or use them all up.
  have hmid : (mid.attempts = job.attempts ∨ mid.attempts = job.maxAttempts) ∧
      mid.maxAttempts = job.maxAttempts := by
    obtain ⟨readded, hr, hmid⟩ := hs.queued
    rcases hr.of_locked hs.locked with rfl | rfl <;> rcases hmid with rfl | ⟨-, rfl⟩ <;>
      simp [Job.superseded, Job.setPayload]
  obtain ⟨hmid, hmidMax⟩ := hmid
  have hlock : mid.lock.isSome := by
    rw [hs.queued.lock]
    exact hs.locked
  refine ⟨fun _ => ⟨?_, hmidMax ▸ hmax, fun hended => by cases hended⟩, fun hnone => ?_⟩
  · change 0 ≤ mid.attempts - _
    cases hended : a.ended.isSome with
    | true =>
      simp only [if_true]
      omega
    | false =>
      have hpos := hspare ((first_iff hwf hinv hdist hs).mp hended)
      simp only [Bool.false_eq_true, if_false]
      omega
  · rw [show mid.lock = none from hnone] at hlock
    cases hlock

private theorem counted_of_charge {deadlines : List (Option Time)} (hbefore : Counted deadlines job)
    (hchange : ChargeChange s e s' id job job') (hclaims : e.claims id = false) :
    Counted deadlines job' := by
  obtain ⟨hrunning, hwaiting⟩ := hbefore
  cases hchange with
  | kept hattempts hmax hlock =>
    constructor
    · intro hlocked
      have hsame : job'.lock = job.lock := by
        rcases hlock with hlock | hlock
        · exact hlock
        · simp [hlock] at hlocked
      obtain ⟨hnonneg, hmax', hspare⟩ := hrunning (hsame ▸ hlocked)
      refine ⟨by omega, by omega, fun hempty => ?_⟩
      have hpos := hspare hempty
      constructor <;> omega
    · intro _ hlive
      rw [hattempts]
      cases hlock' : job.lock with
      | some lock => exact (hrunning (by simp [hlock'])).1
      | none =>
        apply hwaiting hlock'
        simp only [Job.live, decide_eq_true_eq] at hlive ⊢
        omega
  | claimed he => simp [he] at hclaims
  | spent hdrops hattempts hmax hlock =>
    constructor
    · intro hlocked
      obtain ⟨hnonneg, hmax', hspare⟩ := hrunning (hlock ▸ hlocked)
      refine ⟨by omega, by omega, fun hempty => ?_⟩
      have hpos := hspare hempty
      constructor <;> omega
    · intro _ hlive
      simp only [Job.live, decide_eq_true_eq] at hlive
      omega
  | replaced hlock hattempts => exact ⟨fun h => by simp [hlock] at h, fun _ hlive => (hattempts hlive).ge⟩

private theorem counted_exec (hwf : Wf s) (hinv : Inv (s, w)) (hdist : DistinctLocks s)
    (h : s.exec e = some (s', r)) (hrow' : s'.db.jobs.get? id = some job') :
    Counted ((w.note s e s').deadlines id) job' := by
  cases hrow : s.db.jobs.get? id with
  | none =>
    have hchange := State.row_change hwf h id
    rw [hrow, hrow'] at hchange
    cases hchange with
    | inserted _ hid hlock he hattempts =>
      exact ⟨fun h => by simp [hlock] at h, fun _ hlive => (hattempts hlive).ge⟩
    | continuation => exact ⟨nofun, fun _ _ => le_rfl⟩
  | some job =>
    cases hsuspends : s.suspends e id with
    | true =>
      obtain ⟨k, a, row, mid, deadline, hs⟩ := suspends_cases hwf h hsuspends
      obtain rfl := Option.some.inj (hrow'.symm.trans hs.row')
      rw [note_of_suspends hs]
      exact counted_of_suspends hwf hinv hdist hs
    | false =>
      have hbefore : Counted (w.deadlines id) job := hinv.counted id job hrow
      have hchange := charge_change hwf h hrow hrow' hsuspends
      cases hclaims : e.claims id with
      | false =>
        rw [note_of_kept hclaims hsuspends]
        exact counted_of_charge hbefore hchange hclaims
      | true =>
        obtain ⟨hlock, hlive, hattempts, hmax⟩ := claimed_row h hclaims hrow hrow'
        have hnonneg := hbefore.2 hlock hlive
        simp only [Job.live, decide_eq_true_eq] at hlive
        rw [note_of_claims hclaims]
        exact ⟨fun _ => ⟨by omega, by omega, fun _ => ⟨by omega, by omega⟩⟩, fun _ _ => by omega⟩

theorem inv_exec (hwf : Wf s) (hinv : Inv (s, w)) (hdist : DistinctLocks s) (hdist' : DistinctLocks s')
    (h : s.exec e = some (s', r)) : Inv (s', w.note s e s') where
  ended _ _ _ ha hrow hlock := ended_exec hwf hinv hdist hdist' h ha hrow hlock
  charged _ _ hrow hlock hover := charged_exec hwf hinv hdist h hrow hlock hover
  aimed _ _ hrow hlock hover hne := aimed_exec hwf hinv hdist h hrow hlock hover hne
  counted _ _ hrow := counted_exec hwf hinv hdist h hrow

theorem inv_reachable {p : State × Suspensions}
    (hreach : suspensions.ReachableWith (fun p e => LockTimesDiffer p.1 e) p) :
    Wf p.1 ∧ DistinctLocks p.1 ∧ Inv p := by
  refine hreach.invariant (I := fun p => Wf p.1 ∧ DistinctLocks p.1 ∧ Inv p) ?_ ?_
  · rintro ⟨s, w⟩ ⟨hs, hw⟩
    obtain rfl : s = State.initial := hs
    obtain rfl : w = .start := hw
    exact ⟨State.wf_initial, fun _ _ _ _ ha => (by cases ha),
      ⟨fun _ _ _ ha => (by cases ha), fun _ _ hrow => (by cases hrow), fun _ _ hrow => (by cases hrow),
        fun _ _ hrow => (by cases hrow)⟩⟩
  · rintro ⟨s, w⟩ e ⟨s', w'⟩ - ⟨hwf, hdist, hinv⟩ hcond hstep
    obtain ⟨hstep, hw'⟩ := TransitionSystem.observe_step_iff.mp hstep
    obtain ⟨r, hexec⟩ := system_step_iff.mp hstep
    simp only at hw'
    subst hw'
    have hdist' := distinctLocks_exec hdist hcond hexec
    exact ⟨State.wf_exec hwf hexec, hdist', inv_exec hwf hinv hdist hdist' hexec⟩

end Suspensions

/-! ## The failure update -/

section
variable (p : State × Suspensions) (now : Time) (id : JobId)

/-- A group of the row has no children left, or lost the last one since the run first suspended. -/
def State.reachedZero : Bool := p.1.db.ownsFinished id || (p.2.wokenAt id).isSome

/-- The failure update leaves the row with its attempt given back, to run at the earliest deadline. -/
structure Booked (job' : Job) : Prop where
  attempts : job'.attempts = p.2.charged id - if p.2.deadlines id = [] then 0 else 1
  nonneg : 0 ≤ job'.attempts
  aimed : p.2.deadlines id ≠ [] → State.reachedZero p id = false →
    job'.runAt = max (now + graphileBackoff job'.attempts) (earliestDeadline (p.2.deadlines id))
  woken : p.2.deadlines id ≠ [] → State.reachedZero p id = true →
    job'.runAt ≤ now + graphileBackoff job'.attempts

/--
If a group has no children left, one of the reports since the first suspension came before
the update, or the deadline does not lie past the backoff. Otherwise no deadline lies
beyond the year 9999 beside a wait that has none.
-/
def FailsInTime : Prop :=
  p.2.deadlines id ≠ [] →
    if State.reachedZero p id then
      (∃ t, p.2.wokenAt id = some t ∧ t ≤ now) ∨
        aim (p.2.deadlines id) ≤ now + graphileBackoff (p.2.charged id - 1)
    else
      none ∉ p.2.deadlines id ∨
        earliestDeadline (p.2.deadlines id) ≤ max noDeadline (now + graphileBackoff (p.2.charged id - 1))

end

/-- The row after the update that unlocks it. -/
private theorem failed_row (hwf : Wf s) (h : s.exec e = some (s', r)) {now : Time}
    (hfailed : e.failedAt = some now) (hunlocks : s.unlocks s' id = true) :
    ∃ job job', s.db.jobs.get? id = some job ∧ job.lock.isSome ∧ s'.db.jobs.get? id = some job' ∧
      job'.attempts = job.attempts ∧ job'.runAt = max now job.runAt + graphileBackoff job.attempts := by
  simp only [State.unlocks, Bool.and_eq_true, Option.any_eq_true] at hunlocks
  obtain ⟨⟨job, hrow, hlock⟩, job', hrow', hlock'⟩ := hunlocks
  refine ⟨job, job', hrow, hlock, hrow', ?_⟩
  have hchange := State.row_change hwf h id
  rw [hrow, hrow'] at hchange
  cases hchange with
  | @unlocked _ now' error hfree hlocked hnow he =>
    obtain rfl : now' = now := by
      rcases he with ⟨pool, error', rfl⟩ | ⟨pools, rfl⟩ <;> exact Option.some.inj hfailed
    exact ⟨rfl, rfl⟩
  | queued _ _ hfree hq =>
    rw [hq.lock] at hlock'
    simp_all
  | suspended _ mid he => simp [he, Event.failedAt] at hfailed
  | continued _ he => simp [he, Event.failedAt] at hfailed
  | claimed _ he => simp [he, Event.failedAt] at hfailed
  | same | checkpointed | progressed | woken | retried | exhausted | finished =>
    simp_all [Job.setPayload, Job.setRunAt, Job.exhaust]

/-- With a deadline in the year 9999 for waits without one, the update lands on the earliest. -/
private theorem max_aim_iff {t : Time} {deadlines : List (Option Time)} :
    max t (aim deadlines) = max t (earliestDeadline deadlines) ↔
      none ∉ deadlines ∨ earliestDeadline deadlines ≤ max noDeadline t := by
  rw [aim_eq]
  by_cases hnone : none ∈ deadlines
  · rw [if_pos hnone]
    simp only [hnone, not_true_eq_false, false_or]
    rcases le_total noDeadline (earliestDeadline deadlines) with hle | hle
    · rw [min_eq_left hle]
      constructor
      · intro h
        exact (le_max_right _ _).trans (h.ge.trans (max_comm t noDeadline).le)
      · intro h
        rcases le_max_iff.mp h with h | h
        · rw [le_antisymm h hle]
        · rw [max_eq_left h, max_eq_left (hle.trans h)]
    · rw [min_eq_right hle]
      exact iff_of_true rfl (hle.trans (le_max_left _ _))
  · rw [if_neg hnone]
    exact iff_of_true rfl (.inl hnone)

/-- A report moves the update up to the backoff if it came before it. -/
private theorem max_lowered_iff {woken : Option Time} {now t backoff : Time} :
    max now (Suspensions.lowered woken (t - backoff)) + backoff ≤ now + backoff ↔
      (∃ t', woken = some t' ∧ t' ≤ now) ∨ t ≤ now + backoff := by
  rw [add_le_add_iff_right, max_le_iff, and_iff_right le_rfl]
  cases woken with
  | none => simp [Suspensions.lowered]
  | some t' => simp [Suspensions.lowered, or_comm]

/--
In every run, the failure update books the run's suspensions correctly if and only if it
comes in time: one attempt is back if a wait suspended the run, and the row is due at the
earliest deadline, or at once if a group has no children left.
-/
theorem suspension_booked_iff {p p' : State × Suspensions} {now : Time}
    (hreach : suspensions.ReachableWith (fun p e => LockTimesDiffer p.1 e) p)
    (hstep : suspensions.step p e = some p') (hfailed : e.failedAt = some now)
    (hunlocks : p.1.unlocks p'.1 id = true) (hover : p.2.overwritten id = false) :
    ∃ job', p'.1.db.jobs.get? id = some job' ∧ (Booked p now id job' ↔ FailsInTime p now id) := by
  obtain ⟨s, w⟩ := p
  obtain ⟨s', w'⟩ := p'
  obtain ⟨hwf, -, hinv⟩ := Suspensions.inv_reachable hreach
  obtain ⟨hstep, -⟩ := TransitionSystem.observe_step_iff.mp hstep
  obtain ⟨r, hexec⟩ := system_step_iff.mp hstep
  obtain ⟨job, job', hrow, hlock, hrow', hattempts, hrun⟩ := failed_row hwf hexec hfailed hunlocks
  have hcharged := hinv.charged id job hrow hlock hover
  have hnonneg := ((hinv.counted id job hrow).1 hlock).1
  refine ⟨job', hrow', ?_⟩
  rw [← hattempts] at hcharged hnonneg
  by_cases hempty : w.deadlines id = []
  · exact iff_of_true ⟨hcharged, hnonneg, fun h => absurd hempty h, fun h => absurd hempty h⟩
      fun h => absurd hempty h
  have haimed := hinv.aimed id job hrow hlock hover hempty
  rw [← hattempts] at haimed
  have hleft : job'.attempts = w.charged id - 1 := by simpa [hempty] using hcharged
  rw [← hattempts, haimed] at hrun
  unfold FailsInTime
  rw [← hleft]
  cases hreached : State.reachedZero (s, w) id with
  | true =>
    have hiff := @max_lowered_iff (w.wokenAt id) now (aim (w.deadlines id)) (graphileBackoff job'.attempts)
    rw [← hrun] at hiff
    constructor
    · intro hbooked _
      rw [if_pos rfl]
      exact hiff.mp (hbooked.woken hempty hreached)
    · intro htime
      exact ⟨hcharged, hnonneg, fun _ hnot => by simp [hreached] at hnot,
        fun _ _ => hiff.mpr (by simpa using htime hempty)⟩
  | false =>
    have hwoken : w.wokenAt id = none := by
      simp only [State.reachedZero, Bool.or_eq_false_iff] at hreached
      simpa using hreached.2
    have hland : job'.runAt = max (now + graphileBackoff job'.attempts) (aim (w.deadlines id)) := by
      rw [hrun, hwoken, Suspensions.lowered, Option.elim_none, ← max_add_add_right, sub_add_cancel]
    have hiff := @max_aim_iff (now + graphileBackoff job'.attempts) (w.deadlines id)
    rw [← hland] at hiff
    constructor
    · intro hbooked _
      rw [if_neg Bool.false_ne_true]
      exact hiff.mp (hbooked.aimed hempty hreached)
    · intro htime
      exact ⟨hcharged, hnonneg, fun _ _ => hiff.mpr (by simpa using htime hempty),
        fun _ h => by simp [hreached] at h⟩

/-! ## A run that leaves a finished group behind -/

namespace SuspensionTrace

/-- The parent suspends at a wait with a deadline. -/
def suspended : List Event :=
  [.addJob 0 ⟨"crawl", Payload.injectTraceContext none none, none, none, none, none, none, none,
      .replace⟩,
    .claim 0 "p" 1 false,
    .waitBegin 0 0 ⟨"a", "page", [some .null], some 60000, WaitCall.one_input⟩, .waitLookup 1,
    .waitCommit 1 [.add WakeupTrace.options]]

/-- After a report has finished `b`, the next run suspends at `a` and never enters `b`. -/
def leftBehind : List Event :=
  WakeupTrace.reported ++ [.tick 2000000, .claim 2000000 "p" 1 false,
    .waitBegin 2000000 2 (WakeupTrace.call "a"), .waitLookup 1, .waitCommit 1 []]

/-- The failure update of the parent's run. -/
def fails (now : Time) : Event := .failJob now "p" 1 "waiting"

/-- The failure update leaves a row of which `check` is true. -/
def failing (now : Time) (check : State × Suspensions → Job → Bool) (p : State × Suspensions) : Bool :=
  !p.2.overwritten 1 && (suspensions.step p (fails now)).any fun p' =>
    p.1.unlocks p'.1 1 && (p'.1.db.jobs.get? 1).any fun job' => check p job'

end SuspensionTrace

theorem suspension_booked_deadline : ∃ p p' job', suspensions.step p (SuspensionTrace.fails 0) = some p' ∧
    p'.1.db.jobs.get? 1 = some job' ∧ Booked p 0 1 job' ∧ job'.attempts = 0 ∧ job'.runAt = 60000000 := by
  have hinit : suspensions.Init (State.initial, .start) := ⟨rfl, rfl⟩
  obtain ⟨p, hreach, hp⟩ := TransitionSystem.exists_reachableWith_of_runWith
    SuspensionTrace.suspended (SuspensionTrace.failing 0 fun p job' =>
      !State.reachedZero p 1 && p.2.deadlines 1 = [some 60000000] && job'.attempts = 0 &&
        job'.runAt = 60000000)
    (fun p e (hc : lockTimesDiffer p.1 e = true) => (hc : LockTimesDiffer p.1 e)) hinit (by decide)
  simp only [SuspensionTrace.failing, Bool.and_eq_true, Bool.not_eq_true', Option.any_eq_true,
    decide_eq_true_eq] at hp
  obtain ⟨hover, p', hstep, hunlocks, job', hrow', ⟨⟨hreached, hdeadlines⟩, hattempts⟩, hrun⟩ := hp
  obtain ⟨row, hrow, hiff⟩ := suspension_booked_iff hreach hstep rfl hunlocks hover
  obtain rfl : row = job' := Option.some.inj (hrow.symm.trans hrow')
  refine ⟨p, p', row, hstep, hrow', hiff.mpr fun _ => ?_, hattempts, hrun⟩
  rw [hreached, if_neg Bool.false_ne_true, hdeadlines]
  exact .inl (by simp)

/-- The group of `b` has no children left, and the update leaves its parent asleep until the year 9999. -/
theorem suspension_leaves_finished : ∃ p p' job',
    suspensions.ReachableWith (fun p e => LockTimesDiffer p.1 e) p ∧
    suspensions.step p (SuspensionTrace.fails 2000000) = some p' ∧ p'.1.db.jobs.get? 1 = some job' ∧
    p.1.db.finished (1, "b") = true ∧ noDeadline ≤ job'.runAt ∧ ¬Booked p 2000000 1 job' := by
  have hinit : suspensions.Init (State.initial, .start) := ⟨rfl, rfl⟩
  obtain ⟨p, hreach, hp⟩ := TransitionSystem.exists_reachableWith_of_runWith
    SuspensionTrace.leftBehind (SuspensionTrace.failing 2000000 fun p job' =>
      p.2.deadlines 1 = [none] && p.1.db.finished (1, "b") && State.reachedZero p 1 &&
        noDeadline ≤ job'.runAt && 2000000 + graphileBackoff job'.attempts < job'.runAt)
    (fun p e (hc : lockTimesDiffer p.1 e = true) => (hc : LockTimesDiffer p.1 e)) hinit (by decide)
  simp only [SuspensionTrace.failing, Bool.and_eq_true, Bool.not_eq_true', Option.any_eq_true,
    decide_eq_true_eq] at hp
  obtain ⟨-, p', hstep, -, job', hrow', ⟨⟨⟨hdeadlines, hfinished⟩, hreached⟩, hlate⟩, hpast⟩ := hp
  refine ⟨p, p', job', hreach, hstep, hrow', hfinished, hlate, fun hbooked => ?_⟩
  have hsuspended : p.2.deadlines 1 ≠ [] := by
    rw [hdeadlines]
    exact List.cons_ne_nil _ _
  exact absurd (hbooked.woken hsuspended hreached) (not_le.mpr hpast)

end BetterGraphileWorker
