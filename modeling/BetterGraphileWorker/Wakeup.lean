-- SUMMARY: Wakeups: an unlocked parent with a finished group is due within the failure backoff, unless a suspension passed the group over.
import BetterGraphileWorker.Accounting

/-!
# Wakeups

The first suspension of a run resets `run_at`, because the claim left it in the past. It
also discards the wake of a group that is already finished, and only a wait that enters
that group again, or another child's report, repairs that before the row is unlocked.
-/

namespace BetterGraphileWorker

/-- The group has no children left. -/
def Db.finished (db : Db) (key : GroupKey) : Bool :=
  (db.groups.get? key).any fun group => group.remaining = 0

/-- The row owns a group that has no children left. -/
def Db.ownsFinished (db : Db) (id : JobId) : Bool :=
  db.groups.any fun key group => key.1 = id && group.remaining = 0

structure Wakeups where
  /-- When the row was last unlocked. -/
  unlockedAt : JobId → Time
  /-- When the last child of the group reported. -/
  finishedAt : GroupKey → Time
  /-- The run's first suspension reset `run_at` beside a finished group. -/
  missed : JobId → Bool
  /-- `RetryAtError` or a keyed re-add chose the row's `run_at`. -/
  rescheduled : JobId → Bool

def Wakeups.empty : Wakeups := ⟨fun _ => 0, fun _ => 0, fun _ => false, fun _ => false⟩

section
variable (s : State) (e : Event) (s' : State) (id : JobId)

/-- The step unlocks the row. -/
def State.unlocks : Bool :=
  (s.db.jobs.get? id).any (·.lock.isSome) && (s'.db.jobs.get? id).any (·.lock.isNone)

/-- The step reports the last child of one of the row's groups. -/
def State.wakes : Bool :=
  s'.db.groups.any fun key group =>
    key.1 = id && group.remaining = 0 && !s.db.finished key

/-- The step commits the first suspension of the run that holds the row. -/
def State.suspendsFirst : Bool :=
  match e, s.txs.get? id with
  | .waitCommit id' _, some tx =>
    id' = id && (s.attempts.get? tx.attempt).any (·.ended.isNone) &&
      (s'.attempts.get? tx.attempt).any (·.ended.isSome)
  | _, _ => false

/-- The step lets `RetryAtError` or a keyed re-add choose `run_at`. -/
def State.reschedules : Bool :=
  (match e with
    | .retry _ k _ => (s.attempts.get? k).any fun a => a.job.id = id && (s.db.owned a.job).isSome
    | _ => false) || s.replaces s' id

/-- The step claims the row. -/
def Event.claims : Event → JobId → Bool
  | .claim _ _ id' _, id => id' = id
  | _, _ => false

end

def Wakeups.note (s : State) (e : Event) (s' : State) (w : Wakeups) : Wakeups where
  unlockedAt id := if s.unlocks s' id then s.now else w.unlockedAt id
  finishedAt key := if s'.db.finished key && !s.db.finished key then s.now else w.finishedAt key
  missed id :=
    if s.suspendsFirst e s' id then s'.db.ownsFinished id
    else w.missed id && !s.wakes s' id && !e.claims id
  rescheduled id := s.reschedules e s' id || w.rescheduled id && !e.claims id

/-- The system with the history of its wakeups. -/
def wakeups : TransitionSystem (State × Wakeups) Event := system.observe .empty Wakeups.note

/-- The step unlocks a row that owns a finished group which the run's suspension passed over. -/
def unlocksMissed (p : State × Wakeups) (e : Event) : Bool :=
  match p.1.exec e with
  | none => false
  | some (s', _) => p.1.db.jobs.any fun id _ =>
      p.1.unlocks s' id && p.2.missed id && p.1.db.ownsFinished id

/-- An unlocked, live row with a finished group is due when it was unlocked or woken, plus the backoff. -/
def Prompt (p : State × Wakeups) : Prop :=
  ∀ id waitId job, p.1.db.jobs.get? id = some job → job.lock = none → job.live = true →
    p.1.db.finished (id, waitId) = true → p.2.rescheduled id = false →
    job.runAt ≤ max (p.2.unlockedAt id) (p.2.finishedAt (id, waitId)) +
      graphileBackoff job.attempts

/-! ## Finished groups -/

variable {s s' : State} {e : Event} {r : Reply} {id : JobId} {key : GroupKey} {w : Wakeups}

theorem finished_iff {db : Db} : db.finished key = true ↔
    ∃ group, db.groups.get? key = some group ∧ group.remaining = 0 := by
  simp [Db.finished, Option.any_eq_true]

theorem ownsFinished_iff {db : Db} : db.ownsFinished id = true ↔
    ∃ waitId, db.finished (id, waitId) = true := by
  simp only [Db.ownsFinished, Table.any_iff, finished_iff]
  constructor
  · rintro ⟨⟨id', waitId⟩, group, hget, h⟩
    simp only [Bool.and_eq_true, decide_eq_true_eq] at h
    obtain ⟨rfl, hzero⟩ := h
    exact ⟨waitId, group, hget, hzero⟩
  · rintro ⟨waitId, group, hget, hzero⟩
    exact ⟨(id, waitId), group, hget, by simp [hzero]⟩

theorem wakes_iff : s.wakes s' id = true ↔
    ∃ waitId, s'.db.finished (id, waitId) = true ∧ s.db.finished (id, waitId) = false := by
  simp only [State.wakes, Table.any_iff, finished_iff]
  constructor
  · rintro ⟨⟨id', waitId⟩, group, hget, h⟩
    simp only [Bool.and_eq_true, decide_eq_true_eq, Bool.not_eq_true'] at h
    obtain ⟨⟨rfl, hzero⟩, hbefore⟩ := h
    exact ⟨waitId, ⟨group, hget, hzero⟩, hbefore⟩
  · rintro ⟨waitId, ⟨group, hget, hzero⟩, hbefore⟩
    exact ⟨(id, waitId), group, hget, by simp [hzero, hbefore]⟩

/-- A report that finishes a group wakes its parent. -/
private theorem runAt_reportWaits {now : Time} {report : Report} {db : Db} {waitId : String}
    {job' : Job} (hafter : (reportWaits now report db).finished (id, waitId) = true)
    (hbefore : db.finished (id, waitId) = false)
    (hrow : (reportWaits now report db).jobs.get? id = some job') : job'.runAt ≤ now := by
  obtain ⟨group', hget', hzero⟩ := finished_iff.mp hafter
  rw [get?_reportWaits_groups] at hget'
  obtain ⟨group, hget, rfl⟩ := Option.map_eq_some_iff.mp hget'
  have hne : group.remaining ≠ 0 := fun h => by
    simp [Db.finished, hget, h] at hbefore
  simp only [Group.countDown] at hzero
  have hwake : db.wakesParent (db.reported report) id = true :=
    Db.wakesParent_iff.mpr ⟨waitId, group, hget, by omega, by omega⟩
  rw [get?_reportWaits_jobs] at hrow
  obtain ⟨job, -, rfl⟩ := Option.map_eq_some_iff.mp hrow
  simp [hwake, Job.setRunAt]

/-- The rows after a reporting step: the settled child's may also be spent or deleted. -/
theorem row_of_reportedBy {now : Time} {report : Report} {job' : Job}
    (h : s.exec e = some (s', r)) (he : ReportedBy s e now report)
    (hrow : s'.db.jobs.get? id = some job') :
    ∃ job, (reportWaits now report s.db).jobs.get? id = some job ∧ job'.runAt = job.runAt := by
  rcases he with ⟨k, a, owned, settle, visible, childReported, rfl, ha, hown, hrep, rfl⟩ |
    ⟨seen, skipped, rfl, rfl⟩
  · obtain ⟨a', ha', -, -, ⟨hnone, -⟩ | ⟨db, hsettle, rfl, -, -⟩⟩ := State.settle_cases h
    all_goals obtain rfl : a = a' := Option.some.inj (ha.symm.trans ha')
    · simp [hown] at hnone
    obtain ⟨job, db₁, db₂, -, hdb₁, hdb₂, rfl⟩ := settleJob_true hsettle
    rcases hdb₂ with ⟨hnone, -⟩ | ⟨childReported', hsome', rfl⟩
    · simp [hrep] at hnone
    obtain rfl : childReported = childReported' := Option.some.inj (hrep.symm.trans hsome')
    have hrows : (reportWaits now (childReport a.job.id childReported visible) db₁).jobs =
        (reportWaits now (childReport a.job.id childReported visible) s.db).jobs := by
      rcases hdb₁ with rfl | ⟨outcome, rfl⟩ <;> rfl
    simp only [get?_settleRow, hrows] at hrow
    cases hmode : settle.row with
    | keep => exact ⟨job', by simpa [hmode] using hrow, rfl⟩
    | exhaust =>
      simp only [hmode] at hrow
      split at hrow
      · obtain ⟨row, hget, rfl⟩ := Option.map_eq_some_iff.mp hrow
        exact ⟨row, hget, rfl⟩
      · exact ⟨job', hrow, rfl⟩
    | delete =>
      simp only [hmode] at hrow
      split at hrow
      · cases hrow
      · exact ⟨job', hrow, rfl⟩
  · obtain ⟨-, rfl⟩ := State.sweepLost_cases h
    exact ⟨job', hrow, rfl⟩

/-- Only a report finishes a group, and it wakes the parent. -/
theorem runAt_of_wakes (hwf : Wf s) (h : s.exec e = some (s', r)) {job' : Job}
    (hwakes : s.wakes s' id = true) (hrow : s'.db.jobs.get? id = some job') :
    job'.runAt ≤ s.now := by
  obtain ⟨waitId, hafter, hbefore⟩ := wakes_iff.mp hwakes
  -- Every other step leaves a finished group that was finished before.
  have hkept : ∀ {group : Group}, group.remaining = 0 →
      s.db.groups.get? (id, waitId) ≠ some group := fun hzero hget => by
    simp [Db.finished, hget, hzero] at hbefore
  obtain ⟨group, hget', hzero⟩ := finished_iff.mp hafter
  cases State.tables_change hwf h with
  | same hg hw => exact absurd (hg ▸ hget') (hkept hzero)
  | reported now report hnow hfree he hg hw =>
    obtain ⟨job, hjob, hrun⟩ := row_of_reportedBy h he hrow
    have hfinished : (reportWaits now report s.db).finished (id, waitId) = true := by
      rw [finished_iff, ← hg]
      exact ⟨group, hget', hzero⟩
    rw [hrun]
    exact (runAt_reportWaits hfinished hbefore hjob).trans hnow
  | created he htx hr hlen hg hw =>
    rw [hg, Table.get?_insert] at hget'
    split at hget'
    · obtain rfl := Option.some.inj hget'
      simp [WaitCall.newGroup, WaitCall.nonempty] at hzero
    · exact absurd hget' (hkept hzero)
  | deleted he htx hleave hr hg hw =>
    rw [hg, get?_deleteGroup_groups] at hget'
    split at hget'
    · cases hget'
    · exact absurd hget' (hkept hzero)
  | retargeted he htx hr hwaited hg hw => exact absurd (hg ▸ hget') (hkept hzero)
  | orphaned he hg hw =>
    simp only [hg, sweepOrphans, Table.get?_filter, Option.filter_eq_some_iff] at hget'
    exact absurd hget'.1 (hkept hzero)

/-! ## Due rows -/

/-- What a step does to the time at which a row is due. -/
inductive DueChange (s : State) (e : Event) (s' : State) (id : JobId) (job job' : Job) : Prop where
  | kept (hlock : job'.lock = job.lock) (hrun : job'.runAt ≤ job.runAt)
      (hlive : job'.live = true → job.live = true ∧ job'.attempts = job.attempts)
  | claimed (he : e.claims id = true)
  | unlocked {now : Time} {error : String} (hlock : job.lock.isSome) (hnow : now ≤ s.now)
      (hfail : job' = job.fail now error)
  | rescheduled (he : s.reschedules e s' id = true)
  | suspended (he : s.suspendsFirst e s' id = true) (hlock : job'.lock ≠ none)

theorem Job.exhaust_not_live {job : Job} : job.exhaust.live = false := by
  simp [Job.live, Job.exhaust]

theorem Job.superseded_not_live {job : Job} : job.superseded.live = false := by
  simp [Job.live, Job.superseded]

/-- Enqueueing replaces a row, or leaves the time at which it is due. -/
private theorem queued_due {job job' : Job} (hq : Queued job job') :
    job.lock = none ∧ job.generation < job'.generation ∨
      job'.runAt = job.runAt ∧
        (job'.live = true → job.live = true ∧ job'.attempts = job.attempts) := by
  obtain ⟨mid, hr, hjob'⟩ := hq
  have hmid : job'.runAt = mid.runAt ∧ job'.attempts = mid.attempts ∧
      job'.live = mid.live ∧ job'.generation = mid.generation := by
    rcases hjob' with rfl | ⟨-, rfl⟩ <;> exact ⟨rfl, rfl, rfl, rfl⟩
  obtain ⟨hrun, hattempts, hlive, hgen⟩ := hmid
  by_cases hsame : mid.generation = job.generation
  · rcases hr.kept hsame with rfl | rfl
    · exact .inr ⟨hrun, fun h => ⟨hlive ▸ h, hattempts⟩⟩
    · refine .inr ⟨hrun, fun h => ?_⟩
      rw [hlive, Job.superseded_not_live] at h
      cases h
  · have hlt : job.generation < job'.generation := by
      have hle := hr.generation_le
      omega
    exact .inl ⟨Queued.unlocked ⟨mid, hr, hjob'⟩ hlt, hlt⟩

/-- The first suspension of a run sets `ended`. -/
private theorem suspendsFirst_of_commit (hwf : Wf s) (h : s.exec e = some (s', r)) {k : ℕ}
    {now : Time} {call : WaitCall} {found : Option FoundGroup} {a : Attempt}
    {prepared : List Prepared} (he : e = .waitCommit id prepared)
    (htx : s.txs.get? id = some ⟨k, now, .waitLooked call false found⟩)
    (ha : s.attempts.get? k = some a) (hr : r = .entered .suspended) :
    s.suspendsFirst e s' id = true := by
  subst he
  obtain ⟨k', now', call', suspended, found', a', htx', ha', -, ⟨-, rfl, -⟩ |
    ⟨db, entered, -, hr', rfl⟩⟩ := State.waitCommit_cases h
  · cases hr
  obtain rfl : k = k' := by simp_all
  obtain rfl : entered = .suspended := by simpa using hr'.symm.trans hr
  obtain ⟨a₀, -, ha₀, -, -, -, -, -, -, hended, -⟩ := hwf.tx id _ htx
  obtain rfl : a₀ = a := Option.some.inj (ha₀.symm.trans ha)
  obtain rfl : a' = a₀ := Option.some.inj (ha'.symm.trans ha)
  have hnone : a'.ended = none := by simpa using hended.symm
  simp [State.suspendsFirst, htx, ha, hnone, State.Attempt.leave]

theorem due_change (hwf : Wf s) (h : s.exec e = some (s', r)) {job job' : Job}
    (hrow : s.db.jobs.get? id = some job) (hrow' : s'.db.jobs.get? id = some job') :
    DueChange s e s' id job job' := by
  have hchange := State.row_change hwf h id
  rw [hrow, hrow'] at hchange
  cases hchange with
  | same => exact .kept rfl le_rfl fun h => ⟨h, rfl⟩
  | queued _ _ hfree hq he =>
    rcases queued_due hq with ⟨-, hgen⟩ | ⟨hrun, hlive⟩
    · exact .rescheduled (by simp [State.reschedules, State.replaces, hrow, hrow', hgen])
    · exact .kept hq.lock hrun.le hlive
  | claimed _ he => exact .claimed (by simp [he, Event.claims])
  | unlocked _ hfree hlock hnow he => exact .unlocked hlock hnow rfl
  | checkpointed | progressed | finished => exact .kept rfl le_rfl fun h => ⟨h, rfl⟩
  | woken _ hfree hle ht => exact .kept rfl hle fun h => ⟨h, rfl⟩
  | retried _ he ha hid howns hfree =>
    have hown := owned_eq_some_iff.mpr ⟨hid ▸ hrow, howns⟩
    exact .rescheduled (by simp [State.reschedules, he, ha, hid, hown])
  | exhausted _ hfree ht =>
    exact .kept rfl ht fun hlive => by simp [Job.exhaust_not_live] at hlive
  | continued _ he htx ha hr hout =>
    refine .kept Job.retired_lock (le_of_eq ?_) fun hlive => ?_
    · unfold Job.retired
      split <;> rfl
    · simp [Job.retired, Job.exhaust_not_live] at hlive
  | @suspended _ mid k now call suspended found a deadline prepared he htx ha hr hq hfound =>
    obtain ⟨-, row, hrow₁, hown⟩ := State.owned_of_tx hwf htx ha
    obtain rfl : row = job := Option.some.inj (hrow₁.symm.trans hrow)
    obtain ⟨lock, hlock, -⟩ := owns_iff.mp (owned_eq_some_iff.mp hown).2
    cases suspended with
    | false =>
      refine .suspended (suspendsFirst_of_commit hwf h he htx ha hr) ?_
      change mid.lock ≠ none
      rw [hq.lock, hlock]
      exact Option.some_ne_none lock
    | true =>
      rcases queued_due hq with ⟨hnone, -⟩ | ⟨hrun, hlive⟩
      · rw [hlock] at hnone
        cases hnone
      · refine .kept hq.lock ((min_le_left _ _).trans hrun.le) fun h => ?_
        simpa [Job.suspend] using hlive (by simpa [Job.live, Job.suspend] using h)

/-- A claim leaves a locked row that was due. -/
private theorem runAt_of_claims (h : s.exec e = some (s', r)) (he : e.claims id = true)
    {job' : Job} (hrow' : s'.db.jobs.get? id = some job') :
    job'.lock ≠ none ∧ job'.runAt ≤ s.now := by
  cases e with
  | claim now pool id' jobOutcomes =>
    obtain rfl : id' = id := by simpa [Event.claims] using he
    obtain ⟨job, hrow, hclaim, -, hnow, -, rfl⟩ := State.claim_cases h
    obtain rfl : job.lockFor ⟨pool, now⟩ = job' := by simpa [hrow] using hrow'
    simp only [claimable, Bool.and_eq_true, decide_eq_true_eq] at hclaim
    exact ⟨Option.some_ne_none _, hclaim.1.2.trans hnow⟩
  | _ => cases he

/-! ## The invariant -/

structure Wakeups.Inv (p : State × Wakeups) : Prop where
  below : ∀ key group, p.1.db.groups.get? key = some group → key.1 < p.1.db.nextId
  /-- A running job is due, unless its suspension passed a finished group over. -/
  running : ∀ id job, p.1.db.jobs.get? id = some job → job.lock ≠ none →
    p.1.db.ownsFinished id = true → p.2.missed id = false → p.2.rescheduled id = false →
    job.runAt ≤ p.1.now
  prompt : Prompt p

/-- A group that was there before, or a new one of the row that the committing attempt holds. -/
private theorem group_below (hwf : Wf s) (h : s.exec e = some (s', r))
    (hbelow : ∀ key group, s.db.groups.get? key = some group → key.1 < s.db.nextId)
    {group : Group} (hget : s'.db.groups.get? key = some group) : key.1 < s'.db.nextId := by
  refine lt_of_lt_of_le ?_ (State.db_ok hwf h).1
  cases State.tables_change hwf h with
  | same hg hw | retargeted he htx hr hwaited hg hw => exact hbelow key group (hg ▸ hget)
  | reported now report hnow hfree he hg hw =>
    rw [hg, get?_reportWaits_groups] at hget
    obtain ⟨group₀, hget₀, -⟩ := Option.map_eq_some_iff.mp hget
    exact hbelow key group₀ hget₀
  | created he htx hr hlen hg hw =>
    rw [hg, Table.get?_insert] at hget
    split at hget
    · rename_i hkey
      obtain ⟨-, job, -, -, hrow, -⟩ := hwf.tx _ _ htx
      rw [hkey]
      exact hwf.idsBelow _ _ hrow
    · exact hbelow key group hget
  | deleted he htx hleave hr hg hw =>
    rw [hg, get?_deleteGroup_groups] at hget
    split at hget
    · cases hget
    · exact hbelow key group hget
  | orphaned he hg hw =>
    simp only [hg, sweepOrphans, Table.get?_filter, Option.filter_eq_some_iff] at hget
    exact hbelow key group hget.1

/-- A row of a finished group was there before. -/
private theorem row_of_finished (hwf : Wf s) (h : s.exec e = some (s', r))
    (hbelow : ∀ key group, s.db.groups.get? key = some group → key.1 < s.db.nextId)
    {waitId : String} (hfinished : s.db.finished (id, waitId) = true) {job' : Job}
    (hrow' : s'.db.jobs.get? id = some job') : ∃ job, s.db.jobs.get? id = some job := by
  obtain ⟨group, hget, -⟩ := finished_iff.mp hfinished
  have hid := hbelow _ _ hget
  have hchange := State.row_change hwf h id
  rw [hrow'] at hchange
  generalize hrow : s.db.jobs.get? id = before at hchange
  cases hchange with
  | same => exact ⟨job', rfl⟩
  | inserted _ hle => exact absurd hid (not_lt.mpr hle)
  | continuation he htx hnext => exact absurd hid (by simp [hnext])
  | _ => exact ⟨_, rfl⟩

variable {waitId : String} {job' : Job}

/-- The step lemma for rows that stay or become locked. -/
private theorem running_exec (hwf : Wf s) (hinv : Wakeups.Inv (s, w))
    (h : s.exec e = some (s', r)) (hrow' : s'.db.jobs.get? id = some job')
    (hlock' : job'.lock ≠ none) (hfinished : s'.db.ownsFinished id = true)
    (hmissed : (w.note s e s').missed id = false)
    (hres : (w.note s e s').rescheduled id = false) : job'.runAt ≤ s.now := by
  by_cases hwakes : s.wakes s' id = true
  · exact runAt_of_wakes hwf h hwakes hrow'
  by_cases hclaims : e.claims id = true
  · exact (runAt_of_claims h hclaims hrow').2
  simp only [Wakeups.note, Bool.or_eq_false_iff] at hmissed hres
  obtain ⟨hres, hwres⟩ := hres
  split at hmissed
  · simp [hfinished] at hmissed
  rename_i hfirst
  -- The group was finished before, so the row was there and due.
  obtain ⟨waitId, hafter⟩ := ownsFinished_iff.mp hfinished
  have hbefore : s.db.finished (id, waitId) = true := by
    by_contra hne
    exact hwakes (wakes_iff.mpr ⟨waitId, hafter, by simpa using hne⟩)
  obtain ⟨job, hrow⟩ := row_of_finished hwf h hinv.below hbefore hrow'
  cases due_change hwf h hrow hrow' with
  | kept hlock hrun =>
    exact hrun.trans (hinv.running id job hrow (hlock ▸ hlock')
      (ownsFinished_iff.mpr ⟨waitId, hbefore⟩) (by simpa [hwakes, hclaims] using hmissed)
      (by simpa [hclaims] using hwres))
  | claimed he => exact absurd he hclaims
  | unlocked hlock hnow hfail => simp [hfail, Job.fail] at hlock'
  | rescheduled he => simp [he] at hres
  | suspended he => exact absurd he hfirst

/-- The step lemma for rows that stay or become unlocked. -/
private theorem prompt_exec (hwf : Wf s) (hinv : Wakeups.Inv (s, w))
    (hcond : unlocksMissed (s, w) e = false) (h : s.exec e = some (s', r)) :
    Prompt (s', w.note s e s') := by
  intro id waitId job' hrow' hlock' hlive hafter hres
  simp only at hrow' hafter hres
  by_cases hbefore : s.db.finished (id, waitId) = true
  · obtain ⟨job, hrow⟩ := row_of_finished hwf h hinv.below hbefore hrow'
    have hclaims : e.claims id = false := by
      by_contra hne
      exact (runAt_of_claims h (by simpa using hne) hrow').1 hlock'
    simp only [Wakeups.note, Bool.or_eq_false_iff, hclaims, Bool.not_false, Bool.and_true] at hres
    obtain ⟨hres, hwres⟩ := hres
    cases due_change hwf h hrow hrow' with
    | kept hlock hrun hkept =>
      have hnone : job.lock = none := hlock.symm.trans hlock'
      have hunlocks : s.unlocks s' id = false := by simp [State.unlocks, hrow, hnone]
      obtain ⟨hlive₀, hattempts⟩ := hkept hlive
      rw [hattempts]
      simpa [Wakeups.note, hunlocks, hbefore] using
        hrun.trans (hinv.prompt id waitId job hrow hnone hlive₀ hbefore hwres)
    | claimed he => simp [he] at hclaims
    | unlocked hlock hnow hfail =>
      have hunlocks : s.unlocks s' id = true := by simp [State.unlocks, hrow, hrow', hlock, hlock']
      have howns : s.db.ownsFinished id = true := ownsFinished_iff.mpr ⟨waitId, hbefore⟩
      have hmissed : w.missed id = false := by
        by_contra hne
        have hany : (s.db.jobs.any fun id _ => s.unlocks s' id && w.missed id &&
            s.db.ownsFinished id) = true :=
          Table.any_iff.mpr ⟨id, job, hrow, by simp [hunlocks, howns, hne]⟩
        simp [unlocksMissed, h, hany] at hcond
      have hdue := hinv.running id job hrow (Option.isSome_iff_ne_none.mp hlock) howns hmissed hwres
      have hrun : job'.runAt ≤ s.now + graphileBackoff job'.attempts := by
        rw [hfail]
        exact add_le_add_left (max_le hnow hdue) _
      refine hrun.trans (add_le_add_left ?_ _)
      simp [Wakeups.note, hunlocks]
    | rescheduled he => simp [he] at hres
    | suspended he hlock => exact absurd hlock' hlock
  · have hwakes : s.wakes s' id = true := wakes_iff.mpr ⟨waitId, hafter, by simpa using hbefore⟩
    have hdue := runAt_of_wakes hwf h hwakes hrow'
    have hat : (w.note s e s').finishedAt (id, waitId) = s.now := by
      simp [Wakeups.note, hafter, hbefore]
    calc job'.runAt ≤ (w.note s e s').finishedAt (id, waitId) := hat ▸ hdue
      _ ≤ max _ _ := le_max_right _ _
      _ ≤ _ := le_add_of_nonneg_right (graphileBackoff_nonneg _)

theorem Wakeups.inv_exec (hwf : Wf s) (hinv : Wakeups.Inv (s, w))
    (hcond : unlocksMissed (s, w) e = false) (h : s.exec e = some (s', r)) :
    Wakeups.Inv (s', w.note s e s') where
  below _ _ hget := group_below hwf h hinv.below hget
  running _ _ hrow' hlock' hfinished hmissed hres :=
    (running_exec hwf hinv h hrow' hlock' hfinished hmissed hres).trans (State.now_le h)
  prompt := prompt_exec hwf hinv hcond h

/--
While no unlock leaves behind a finished group that the run's first suspension passed over, an
unlocked, live parent with a finished group is due by its unlock or its last report plus the
backoff.
-/
theorem prompt_wakeup {p : State × Wakeups}
    (hreach : wakeups.ReachableWith (fun p e => unlocksMissed p e = false) p) : Prompt p := by
  refine (hreach.invariant (I := fun p => Wf p.1 ∧ Wakeups.Inv p) ?_ ?_).2.prompt
  · rintro ⟨s, w⟩ ⟨hs, hw⟩
    obtain rfl : s = State.initial := hs
    exact ⟨State.wf_initial, fun _ _ h => (by cases h), fun _ _ h => (by cases h),
      fun _ _ _ h => (by cases h)⟩
  · rintro ⟨s, w⟩ e ⟨s', w'⟩ - ⟨hwf, hinv⟩ hcond hstep
    obtain ⟨hstep, hw'⟩ := TransitionSystem.observe_step_iff.mp hstep
    obtain ⟨r, hexec⟩ := system_step_iff.mp hstep
    simp only at hw'
    subst hw'
    exact ⟨State.wf_exec hwf hexec, Wakeups.inv_exec hwf hinv hcond hexec⟩

/-! ## Two parallel waits -/

namespace WakeupTrace

def options : ChildOptions := ⟨none, none, none, 25, none, none, none, .replace⟩

def call (waitId : String) : WaitCall := ⟨waitId, "page", [some .null], none, WaitCall.one_input⟩

/-- The parent waits for `a` and `b` in parallel, and the child of `b` reports. -/
def reported : List Event :=
  [.addJob 0 ⟨"crawl", Payload.injectTraceContext none none, none, none, none, none, none, none,
      .replace⟩,
    .claim 0 "p" 1 false, .waitBegin 0 0 (call "a"), .waitLookup 1, .waitCommit 1 [.add options],
    .waitBegin 0 0 (call "b"), .waitLookup 1, .waitCommit 1 [.add options],
    .failJob 0 "p" 1 "waiting", .claim 0 "q" 3 false,
    .settle 0 1 ⟨none, some (.ok none), .delete⟩ fun _ => true]

/-- The run that this wakes enters `a` again; its process dies before it enters `b`. -/
def crashed : List Event :=
  reported ++ [.claim 0 "p" 1 false, .waitBegin 0 2 (call "a"), .waitLookup 1, .waitCommit 1 [],
    .release 0 ["p"]]

/-- The row of the parent, its group finished. -/
def woken (s : State) (check : Job → Bool) : Bool :=
  (s.db.jobs.get? 1).any fun job =>
    job.lock.isNone && job.live && s.db.finished (1, "b") && check job

end WakeupTrace

theorem prompt_wakeup_reported : ∃ (p : State × Wakeups) (job : Job), p.1.db.jobs.get? 1 = some job ∧
    p.1.db.finished (1, "b") = true ∧
    job.runAt ≤ max (p.2.unlockedAt 1) (p.2.finishedAt (1, "b")) + graphileBackoff job.attempts := by
  have hinit : wakeups.Init (State.initial, .empty) := ⟨rfl, rfl⟩
  obtain ⟨p, hreach, hp⟩ := TransitionSystem.exists_reachableWith_of_runWith
    WakeupTrace.reported (fun p => WakeupTrace.woken p.1 fun _ => !p.2.rescheduled 1)
    (fun p e (hc : (!unlocksMissed p e) = true) =>
      (by simpa using hc : unlocksMissed p e = false)) hinit (by decide)
  obtain ⟨job, hrow, hjob⟩ := (Option.any_eq_true _ _).mp hp
  simp only [Bool.and_eq_true, Option.isNone_iff_eq_none, Bool.not_eq_true'] at hjob
  obtain ⟨⟨⟨hlock, hlive⟩, hfinished⟩, hres⟩ := hjob
  exact ⟨p, job, hrow, hfinished, prompt_wakeup hreach 1 "b" job hrow hlock hlive hfinished hres⟩

/-- The group of `b` has no children left, and its parent sleeps until the year 9999. -/
theorem asleep_beside_finished : ∃ p job, wakeups.Reachable p ∧ p.1.db.jobs.get? 1 = some job ∧
    p.1.db.finished (1, "b") = true ∧ noDeadline ≤ job.runAt ∧ ¬ Prompt p := by
  have hinit : wakeups.Init (State.initial, .empty) := ⟨rfl, rfl⟩
  obtain ⟨p, hreach, hp⟩ := TransitionSystem.exists_reachable_of_run
    WakeupTrace.crashed (fun p => WakeupTrace.woken p.1 fun job => !p.2.rescheduled 1 &&
      noDeadline ≤ job.runAt && max (p.2.unlockedAt 1) (p.2.finishedAt (1, "b")) +
        graphileBackoff job.attempts < job.runAt) hinit (by decide)
  obtain ⟨job, hrow, hjob⟩ := (Option.any_eq_true _ _).mp hp
  simp only [Bool.and_eq_true, Option.isNone_iff_eq_none, Bool.not_eq_true',
    decide_eq_true_eq] at hjob
  obtain ⟨⟨⟨hlock, hlive⟩, hfinished⟩, ⟨hres, hlate⟩, hbound⟩ := hjob
  exact ⟨p, job, hreach, hrow, hfinished, hlate, fun hprompt =>
    absurd (hprompt 1 "b" job hrow hlock hlive hfinished hres) (not_le.mpr hbound)⟩

end BetterGraphileWorker
