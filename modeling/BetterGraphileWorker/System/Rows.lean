-- SUMMARY: Well-formed states, and everything one step can do to one job row.
import BetterGraphileWorker.System.Steps

/-!
# Job rows

`RowChange` lists what a step can do to the row with a given id; `row_change` proves
the list complete. A row held by an open transaction is changed by that transaction
only, which is how the row lock appears in every later proof.
-/

namespace BetterGraphileWorker

/-! ## Well-formed states -/

/-- What an open transaction has read stays true until it ends. -/
def StageOk (db : Db) (id : JobId) (a : Attempt) (job : Job) (now : Time) : TxStage → Prop
  | .waitLocked call suspended =>
    a.cache call.waitId = none ∧ a.ended.any (·.isContinued) = false ∧ suspended = a.ended.isSome ∧
      State.callable a call.waitId = true
  | .waitLooked call suspended found =>
    a.cache call.waitId = none ∧ a.ended.any (·.isContinued) = false ∧ suspended = a.ended.isSome ∧
      State.callable a call.waitId = true ∧ found = findGroup now (id, call.waitId) db
  | .continuing job' _ _ _ => job' = job ∧ a.ended = none

/-- An open transaction belongs to an attempt that owns the row it holds. -/
def TxOk (s : State) (id : JobId) (tx : Tx) : Prop :=
  ∃ a job, s.attempts.get? tx.attempt = some a ∧ a.job.id = id ∧
    s.db.jobs.get? id = some job ∧ a.job.owns job = true ∧ tx.startedAt ≤ s.now ∧
    StageOk s.db id a job tx.startedAt tx.stage

/-- The process sees its lock truncated to milliseconds. -/
def Attempt.LockCopy (a : Attempt) : Prop :=
  a.job.lockedBy = a.lock.lockedBy ∧ a.job.lockedAt = truncateMs a.lock.lockedAt

structure Wf (s : State) : Prop where
  idsBelow : s.db.IdsBelow
  keysUnique : s.db.KeysUnique
  attemptBelow : ∀ k a, s.attempts.get? k = some a → k < s.nextAttempt ∧ a.job.id < s.db.nextId
  lockCopy : ∀ k a, s.attempts.get? k = some a → a.LockCopy
  given : ∀ id job lock, s.db.jobs.get? id = some job → job.lock = some lock →
    ∃ k a, s.attempts.get? k = some a ∧ a.job.id = id ∧ a.lock = lock
  tx : ∀ id tx, s.txs.get? id = some tx → TxOk s id tx

/-! ## Row changes -/

/-- What enqueueing children can do to a row: re-add its key, then mark it as waited on. -/
def Queued (job job' : Job) : Prop :=
  ∃ mid, Readded job mid ∧ (job' = mid ∨
    mid.payload.isObject = true ∧ job' = mid.setPayload (Payload.markWaited mid.payload))

/-- The `now()` of a step that wakes the row because one of its wait groups is finished. -/
def State.wakesAt (s : State) (id : JobId) : Event → Option Time
  | .settle now k settle visible =>
    if (s.attempts.get? k).any fun a =>
        (s.db.owned a.job).isSome && settle.report.any fun report =>
          s.db.wakesParent (s.db.reported (childReport a.job.id report visible)) id
    then some now else none
  | .sweepLost now seen skipped =>
    if s.db.wakesParent (s.db.reported (lostReport s.db seen skipped)) id then some now else none
  | .sweepWake now =>
    if (s.db.groups.any fun key group => key.1 = id && group.remaining = 0) &&
        (s.db.jobs.get? id).any fun job => job.available && now < job.runAt
    then some now else none
  | _ => none

inductive RowChange (s : State) (e : Event) (r : Reply) (id : JobId) :
    Option Job → Option Job → Prop where
  | same (o : Option Job) : RowChange s e r id o o
  | deleted (job : Job) (hfree : s.txs.get? id = none) : RowChange s e r id (some job) none
  | inserted (job : Job) (hid : s.db.nextId ≤ id) (hlock : job.lock = none)
      (he : (∃ now spec, e = .addJob now spec) ∨ ∃ id' prepared, e = .waitCommit id' prepared)
      (hattempts : job.live = true → job.attempts = 0) :
      RowChange s e r id none (some job)
  | queued (job job' : Job) (hfree : s.txs.get? id = none) (h : Queued job job')
      (he : (∃ now spec, e = .addJob now spec) ∨ ∃ id' prepared, e = .waitCommit id' prepared) :
      RowChange s e r id (some job) (some job')
  | claimed (job : Job) {now : Time} {pool : PoolId} {jobOutcomes : Bool}
      (he : e = .claim now pool id jobOutcomes) (hfree : s.txs.get? id = none)
      (hclaim : claimable now s.db job = true) (hnow : now ≤ s.now) :
      RowChange s e r id (some job) (some (job.lockFor ⟨pool, now⟩))
  | unlocked (job : Job) {now : Time} {error : String} (hfree : s.txs.get? id = none)
      (hlock : job.lock.isSome) (hnow : now ≤ s.now)
      (he : (∃ pool error, e = .failJob now pool id error) ∨ ∃ pools, e = .release now pools) :
      RowChange s e r id (some job) (some (job.fail now error))
  | checkpointed (job : Job) {k : ℕ} {a : Attempt} {stepId : String} {output : Option Json}
      {resolved : Bool} (he : e = .checkpoint k stepId output resolved) (hr : r = .done)
      (ha : s.attempts.get? k = some a) (hid : a.job.id = id) (howns : a.job.owns job = true)
      (hfree : s.txs.get? id = none) (hcall : State.callable a stepId = true)
      (hcache : a.cache stepId = none) :
      RowChange s e r id (some job)
        (some (job.setPayload (Payload.setStep job.payload stepId (entry output).toJson)))
  | progressed (job : Job) {k : ℕ} {a : Attempt} {value : Json} (he : e = .writeProgress k)
      (ha : s.attempts.get? k = some a) (hid : a.job.id = id) (howns : a.job.owns job = true)
      (hfree : s.txs.get? id = none) :
      RowChange s e r id (some job)
        (some (job.setPayload (Payload.setProgress job.payload value)))
  | woken (job : Job) {t : Time} (hfree : s.txs.get? id = none) (hle : t ≤ job.runAt)
      (ht : t ≤ s.now) (hwake : ∃ now, s.wakesAt id e = some now ∧ t = min job.runAt now) :
      RowChange s e r id (some job) (some (job.setRunAt t))
  | retried (job : Job) {k : ℕ} {a : Attempt} {now runAt : Time} {t : Time}
      (he : e = .retry now k runAt) (ha : s.attempts.get? k = some a) (hid : a.job.id = id)
      (howns : a.job.owns job = true) (hfree : s.txs.get? id = none)
      (ht : t = runAt - graphileBackoff job.attempts) :
      RowChange s e r id (some job) (some (job.setRunAt t))
  | exhausted (job : Job) {t : Time} (hfree : s.txs.get? id = none) (ht : t ≤ job.runAt)
      (hwake : t = job.runAt ∨ ∃ now, s.wakesAt id e = some now ∧ t = min job.runAt now) :
      RowChange s e r id (some job) (some (job.setRunAt t).exhaust)
  | suspended (job mid : Job) {k : ℕ} {now : Time} {call : WaitCall} {suspended : Bool}
      {found : Option FoundGroup} {a : Attempt} {deadline : Option Time} {prepared : List Prepared}
      (he : e = .waitCommit id prepared)
      (htx : s.txs.get? id = some ⟨k, now, .waitLooked call suspended found⟩)
      (ha : s.attempts.get? k = some a) (hr : r = .entered .suspended) (hq : Queued job mid)
      (hfound : found.isSome → mid = job)
      (hdeadline : deadline = ((s.db.groups.get? (id, call.waitId)).getD (call.newGroup now)).deadline) :
      RowChange s e r id (some job)
        (some (mid.suspend deadline (if suspended then 0 else 1)))
  | finished (job : Job) {k : ℕ} {now : Time} {call : WaitCall} {suspended : Bool}
      {group : FoundGroup} {a : Attempt} {checkpoint : WaitCheckpoint} {prepared : List Prepared}
      (he : e = .waitCommit id prepared)
      (htx : s.txs.get? id = some ⟨k, now, .waitLooked call suspended (some group)⟩)
      (ha : s.attempts.get? k = some a) (hr : r = .entered (.finished checkpoint)) :
      RowChange s e r id (some job)
        (some (job.setPayload (Payload.setStep job.payload call.waitId
          (StepCacheEntry.output checkpoint.toJson).toJson)))
  | continued (job : Job) {k : ℕ} {now : Time} {runAt : Option Time} {traceparent : Option String}
      {progress : Option Json} {a : Attempt} {next : JobId} (he : e = .continueCommit id)
      (htx : s.txs.get? id = some ⟨k, now, .continuing job runAt traceparent progress⟩)
      (ha : s.attempts.get? k = some a) (hr : r = .continued next) (hout : a.jobOutcomes = false) :
      RowChange s e r id (some job) (some job.retired)
  | continuedAway (job : Job) {k : ℕ} {now : Time} {runAt : Option Time}
      {traceparent : Option String} {progress : Option Json} {a : Attempt} {next : JobId}
      (he : e = .continueCommit id)
      (htx : s.txs.get? id = some ⟨k, now, .continuing job runAt traceparent progress⟩)
      (ha : s.attempts.get? k = some a) (hr : r = .continued next) (hout : a.jobOutcomes = true) :
      RowChange s e r id (some job) none
  | continuation {old : JobId} {k : ℕ} {now : Time} {job : Job} {runAt : Option Time}
      {traceparent : Option String} {progress : Option Json} (he : e = .continueCommit old)
      (htx : s.txs.get? old = some ⟨k, now, .continuing job runAt traceparent progress⟩)
      (hid : id = s.db.nextId) (hr : r = .continued id) :
      RowChange s e r id none (some (newJob now (continueSpec job runAt traceparent progress)))

theorem Queued.refl (job : Job) : Queued job job := ⟨job, .refl job, .inl rfl⟩

theorem Queued.key {job job' : Job} (h : Queued job job') :
    job'.key = job.key ∨ job'.key = none := by
  obtain ⟨mid, hr, rfl | ⟨-, rfl⟩⟩ := h
  · exact hr.key
  · exact hr.key

theorem Queued.lock {job job' : Job} (h : Queued job job') : job'.lock = job.lock := by
  obtain ⟨mid, hr, rfl | ⟨-, rfl⟩⟩ := h
  · exact hr.lock
  · exact hr.lock

theorem Queued.generation_le {job job' : Job} (h : Queued job job') :
    job.generation ≤ job'.generation := by
  obtain ⟨mid, hr, rfl | ⟨-, rfl⟩⟩ := h
  · exact hr.generation_le
  · exact hr.generation_le

theorem Queued.unlocked {job job' : Job} (h : Queued job job')
    (hlt : job.generation < job'.generation) : job.lock = none := by
  obtain ⟨mid, hr, hjob'⟩ := h
  have hmid : mid.generation = job'.generation := by
    rcases hjob' with rfl | ⟨-, rfl⟩ <;> rfl
  by_contra hlock
  exact hlt.ne' (hmid ▸ hr.locked (Option.isSome_iff_ne_none.mpr hlock))

theorem Queued.keyed {job job' : Job} (h : Queued job job')
    (hlt : job.generation < job'.generation) : job.key ≠ none := by
  intro hkey
  obtain ⟨mid, hr, hjob'⟩ := h
  obtain rfl := hr.keyless hkey
  rcases hjob' with rfl | ⟨-, rfl⟩ <;> exact lt_irrefl _ hlt

/-- The step replaces the payload of a row by re-adding its key. -/
def State.replaces (s s' : State) (id : JobId) : Bool :=
  (s.db.jobs.get? id).any fun job =>
    (s'.db.jobs.get? id).any fun job' => job.generation < job'.generation

namespace State

variable {s s' : State} {r : Reply} {e : Event} {k : ℕ} {id : JobId} {now : Time}

/-- The row of an open transaction's attempt is owned by it. -/
theorem owned_of_tx (hwf : Wf s) {tx : Tx} (htx : s.txs.get? id = some tx) {a : Attempt}
    (ha : s.attempts.get? tx.attempt = some a) :
    a.job.id = id ∧ ∃ job, s.db.jobs.get? id = some job ∧ s.db.owned a.job = some job := by
  obtain ⟨a', job, ha', hid, hrow, howns, -⟩ := hwf.tx id tx htx
  obtain rfl : a' = a := by simpa [ha] using ha'.symm
  subst hid
  exact ⟨rfl, job, hrow, owned_eq_some_iff.mpr ⟨hrow, howns⟩⟩

/-- A locked row is not available, so an available one is not held. -/
theorem free_of_unlocked (hwf : Wf s) {job : Job} (hrow : s.db.jobs.get? id = some job)
    (hlock : job.lock = none) : s.txs.get? id = none := by
  cases htx : s.txs.get? id with
  | none => rfl
  | some tx =>
    obtain ⟨a, job', -, -, hrow', howns, -⟩ := hwf.tx id tx htx
    obtain rfl : job' = job := by simpa [hrow] using hrow'.symm
    obtain ⟨lock, hl, -⟩ := owns_iff.mp howns
    simp [hlock] at hl

/-! ## Enqueueing beside open transactions -/

/-- The plan leaves a row alone unless it names it. -/
private theorem planRow_eq_or (now : Time) (id : JobId) (plan : AddPlan) (spec : JobSpec)
    (job : Job) :
    plan.row now spec id job = job ∨ plan = .replace id ∨ plan = .supersede id := by
  cases plan with
  | insert => exact .inl rfl
  | dedupe => exact .inl rfl
  | replace id' => by_cases h : id = id' <;> simp [AddPlan.row, h]
  | supersede id' => by_cases h : id = id' <;> simp [AddPlan.row, h]

theorem planRow_of_held {own : Option JobId} {plan : AddPlan} {spec : JobSpec} {job : Job}
    (hfree : s.planFree own plan = true) (hheld : s.txs.get? id ≠ none) (hown : own ≠ some id) :
    plan.row now spec id job = job := by
  rcases planRow_eq_or now id plan spec job with h | rfl | rfl
  · exact h
  all_goals simp [planFree, rowFree, hown, hheld] at hfree

/-- A row that another transaction holds is neither written nor returned by an enqueue. -/
theorem enqueueChildren_held {own : JobId} {queue : String}
    {children : List (Option Json × Prepared)} {db : Db} {job : Job} (hids : db.IdsBelow)
    (hfree : s.childrenFree own now queue children db = true) (hheld : s.txs.get? id ≠ none)
    (hown : own ≠ id) (hrow : db.jobs.get? id = some job) :
    (enqueueChildren now queue children db).1.jobs.get? id = some job ∧
      id ∉ (enqueueChildren now queue children db).2 := by
  induction children generalizing db with
  | nil => exact ⟨hrow, by simp [enqueueChildren]⟩
  | cons child children ih =>
    obtain ⟨input, prepared⟩ := child
    simp only [childrenFree, Bool.and_eq_true] at hfree
    obtain ⟨hhead, htail⟩ := hfree
    have henq := enqueued_enqueueChild now queue input prepared hids
    have hstep : (enqueueChild now queue input db prepared).1.jobs.get? id = some job ∧
        (enqueueChild now queue input db prepared).2 ≠ id := by
      cases prepared with
      | duplicate id' =>
        simp only [Bool.and_eq_true, Bool.or_eq_true, decide_eq_true_eq, rowFree,
          Option.isNone_iff_eq_none] at hhead
        refine ⟨hrow, fun h => ?_⟩
        obtain rfl : id' = id := h
        exact hhead.2.elim hown hheld
      | add options =>
        simp only at hhead
        have hrow' := addJob_kept now (childSpec queue input options) hids hrow
        rw [planRow_of_held hhead hheld (by simpa using hown)] at hrow'
        refine ⟨hrow', fun h => ?_⟩
        change (addJob now (childSpec queue input options) db).2 = id at h
        rw [addJob_snd] at h
        cases hplan : planAdd db (childSpec queue input options) with
        | insert | supersede =>
          rw [hplan] at h
          exact absurd (h ▸ hids _ _ hrow) (lt_irrefl _)
        | replace id' | dedupe id' =>
          rw [hplan] at h hhead
          obtain rfl : id' = id := h
          simp [planFree, rowFree, hown, hheld] at hhead
    obtain ⟨hkeep, hnot⟩ := ih henq.idsBelow htail hstep.1
    exact ⟨hkeep, by simpa [enqueueChildren] using ⟨Ne.symm hstep.2, hnot⟩⟩

theorem row_addJob (hwf : Wf s) {spec : JobSpec}
    (hfree : s.planFree none (planAdd s.db spec) = true) :
    RowChange s (.addJob now spec) r id (s.db.jobs.get? id)
      ((addJob now spec s.db).1.jobs.get? id) := by
  have henq := enqueued_addJob now spec hwf.idsBelow
  cases hrow : s.db.jobs.get? id with
  | none =>
    cases hrow' : (addJob now spec s.db).1.jobs.get? id with
    | none => exact .same none
    | some job' =>
      obtain ⟨hid, hlock⟩ := henq.fresh id job' hrow' hrow
      exact .inserted job' hid hlock (.inl ⟨_, _, rfl⟩) (henq.unspent id job' hrow' hrow)
  | some job =>
    rw [addJob_kept now spec hwf.idsBelow hrow]
    by_cases hheld : s.txs.get? id = none
    · exact .queued job _ hheld ⟨_, readded_row hrow, .inl rfl⟩ (.inl ⟨_, _, rfl⟩)
    · rw [planRow_of_held hfree hheld (by simp)]
      exact .same (some job)

/-! ## Rows that a statement maps -/

/-- The rows after a statement that writes each row on its own. -/
private theorem row_map {f : JobId → Job → Job} {db : Db}
    (hmap : ∀ id, db.jobs.get? id = (s.db.jobs.get? id).map (f id))
    (hf : ∀ job, s.db.jobs.get? id = some job → f id job = job ∨
      RowChange s e r id (some job) (some (f id job))) :
    RowChange s e r id (s.db.jobs.get? id) (db.jobs.get? id) := by
  rw [hmap]
  cases hrow : s.db.jobs.get? id with
  | none => exact .same none
  | some job =>
    rcases hf job hrow with h | h
    · rw [Option.map_some, h]; exact .same (some job)
    · exact h

theorem row_release {pools : List PoolId}
    (hfree : (s.txs.any fun id _ =>
      (s.db.jobs.get? id).any fun job => pools.any job.lockedByPool) = false) (hnow : now ≤ s.now) :
    RowChange s (.release now pools) r id (s.db.jobs.get? id)
      ((releaseJobsLockedBy now pools s.db).jobs.get? id) := by
  refine row_map (f := fun _ job => job.release now pools) (fun id => by simp [releaseJobsLockedBy])
    fun job hrow => ?_
  unfold Job.release
  cases hlock : job.lock with
  | none => exact .inl rfl
  | some lock =>
    dsimp only
    split
    · rename_i hmem
      refine .inr (.unlocked job ?_ (by simp [hlock]) hnow (.inr ⟨_, rfl⟩))
      cases htx : s.txs.get? id with
      | none => rfl
      | some tx =>
        have hany : (s.txs.any fun id _ =>
            (s.db.jobs.get? id).any fun job => pools.any job.lockedByPool) = true := by
          refine Table.any_iff.mpr ⟨id, tx, htx, ?_⟩
          simp only [hrow, Option.any_some, List.any_eq_true]
          exact ⟨_, hmem, by simp [Job.lockedByPool, hlock]⟩
        rw [hfree] at hany
        cases hany
    · exact .inl rfl

theorem row_sweepWake (hwf : Wf s) (hnow : now ≤ s.now) :
    RowChange s (.sweepWake now) r id (s.db.jobs.get? id) ((sweepWake now s.db).jobs.get? id) := by
  refine row_map (f := fun id job => if (s.db.groups.any fun key group =>
      key.1 = id && group.remaining = 0) && job.available && now < job.runAt
    then job.setRunAt now else job) (fun id => by simp [sweepWake]) fun job hrow => ?_
  split
  · rename_i hwake
    have hat : s.wakesAt id (.sweepWake now) = some now := by
      simpa [wakesAt, hrow, Bool.and_assoc] using hwake
    simp only [Bool.and_eq_true, decide_eq_true_eq, Job.available, Option.isNone_iff_eq_none] at hwake
    have hle := le_of_lt hwake.2
    exact .inr (.woken job (free_of_unlocked hwf hrow hwake.1.2.1) hle hnow
      ⟨now, hat, (min_eq_right hle).symm⟩)
  · exact .inl rfl

/-- The rows after a report: parents whose group is finished are woken. -/
theorem reportWaits_row (id : JobId) {report : Report} (hfree : s.reportFree report = true) (hnow : now ≤ s.now) :
    (reportWaits now report s.db).jobs.get? id = s.db.jobs.get? id ∨
      ∃ job t, s.db.jobs.get? id = some job ∧ s.txs.get? id = none ∧ t ≤ job.runAt ∧ t ≤ s.now ∧
        (s.db.wakesParent (s.db.reported report) id = true ∧ t = min job.runAt now) ∧
        (reportWaits now report s.db).jobs.get? id = some (job.setRunAt t) := by
  rw [get?_reportWaits_jobs]
  cases hrow : s.db.jobs.get? id with
  | none => exact .inl rfl
  | some job =>
    by_cases hwake : s.db.wakesParent (s.db.reported report) id = true
    · refine .inr ⟨job, min job.runAt now, rfl, ?_, min_le_left _ _,
        (min_le_right _ _).trans hnow, ⟨hwake, rfl⟩, by simp [hwake]⟩
      cases htx : s.txs.get? id with
      | none => rfl
      | some tx =>
        have hany : (s.txs.any fun id tx =>
            (tx.heldWait.any fun waitId => 0 < s.db.reported report (id, waitId)) ||
              s.db.wakesParent (s.db.reported report) id) = true :=
          Table.any_iff.mpr ⟨id, tx, htx, by simp [hwake]⟩
        simp [reportFree, hany] at hfree
    · exact .inl (by simp [hwake])

/-! ## The list is complete -/

private theorem row_settle {settle : Settle} {visible : WaitKey → Bool}
    (h : s.settle now k settle visible = some (s', r)) :
    RowChange s (.settle now k settle visible) r id (s.db.jobs.get? id) (s'.db.jobs.get? id) := by
  obtain ⟨a, ha, hnow, hfree, hcases⟩ := settle_cases h
  obtain ⟨-, rfl, -⟩ | ⟨db, hsettle, rfl, -, hreport⟩ := hcases
  · exact .same _
  obtain ⟨job, db₁, db₂, hown, hdb₁, hdb₂, rfl⟩ := settleJob_true hsettle
  have hself := ownedFree_iff.mp hfree job hown
  -- Before the row itself is settled, it is at most woken.
  have hmid : db₂.jobs.get? id = s.db.jobs.get? id ∨ ∃ row t, s.db.jobs.get? id = some row ∧
      s.txs.get? id = none ∧ t ≤ row.runAt ∧ t ≤ s.now ∧
      (s.wakesAt id (.settle now k settle visible) = some now ∧ t = min row.runAt now) ∧
      db₂.jobs.get? id = some (row.setRunAt t) := by
    have hjobs₁ : db₁.jobs = s.db.jobs := by
      rcases hdb₁ with rfl | ⟨outcome, rfl⟩ <;> rfl
    rcases hdb₂ with ⟨-, rfl⟩ | ⟨report, hrep, rfl⟩
    · rw [hjobs₁]; exact .inl rfl
    · have hreported : (reportWaits now (childReport a.job.id report visible) db₁).jobs =
          (reportWaits now (childReport a.job.id report visible) s.db).jobs := by
        rcases hdb₁ with rfl | ⟨outcome, rfl⟩ <;> rfl
      rw [hreported]
      rcases reportWaits_row id (hreport report hrep) hnow with
        hsame | ⟨row, t, hrow, htx, hle, ht, ⟨hwake, hmin⟩, hmap⟩
      · exact .inl hsame
      · have hat : s.wakesAt id (.settle now k settle visible) = some now := by
          simp [wakesAt, ha, hown, hrep, hwake]
        exact .inr ⟨row, t, hrow, htx, hle, ht, ⟨hat, hmin⟩, hmap⟩
  rw [get?_settleRow]
  have hkeep : RowChange s (.settle now k settle visible) r id (s.db.jobs.get? id)
      (db₂.jobs.get? id) := by
    rcases hmid with h | ⟨row, t, hrow, htx, hle, ht, hwake, h⟩
    · rw [h]; exact .same _
    · rw [h, hrow]; exact .woken row htx hle ht ⟨now, hwake⟩
  cases settle.row with
  | keep => exact hkeep
  | exhaust =>
    by_cases hid : id = a.job.id
    · subst hid
      simp only [if_true]
      rcases hmid with h | ⟨row, t, hrow, htx, hle, ht, hwake, h⟩
      · rw [h, (owned_eq_some_iff.mp hown).1]
        exact .exhausted job hself (le_refl job.runAt) (.inl rfl)
      · rw [h, hrow]
        exact .exhausted row htx hle (.inr ⟨now, hwake⟩)
    · simpa only [if_neg hid] using hkeep
  | delete =>
    by_cases hid : id = a.job.id
    · subst hid
      simp only [if_true]
      rw [(owned_eq_some_iff.mp hown).1]
      exact .deleted job hself
    · simpa only [if_neg hid] using hkeep

/-- The rows after a patch of the owner's envelope. -/
private theorem row_patch {helpers : HelpersJob} {patch : Json → Json} {db : Db}
    (hok : patchEnvelope helpers patch s.db = .ok db)
    (hpatch : ∀ job, helpers.id = id → s.db.jobs.get? id = some job → helpers.owns job = true →
      RowChange s e r id (some job) (some (job.setPayload (patch job.payload)))) :
    RowChange s e r id (s.db.jobs.get? id) (db.jobs.get? id) := by
  obtain ⟨job, hown, -, -⟩ := patchEnvelope_ok hok
  obtain ⟨hrow, howns⟩ := owned_eq_some_iff.mp hown
  rw [get?_patchEnvelope hok]
  by_cases hid : id = helpers.id
  · subst hid
    simp only [if_true, hrow, Option.map_some]
    exact hpatch job rfl hrow howns
  · rw [if_neg hid]; exact .same _

private theorem row_checkpoint {stepId : String} {output : Option Json} {resolved : Bool}
    (h : s.checkpoint k stepId output resolved = some (s', r)) :
    RowChange s (.checkpoint k stepId output resolved) r id (s.db.jobs.get? id)
      (s'.db.jobs.get? id) := by
  obtain ⟨a, ha, hcall, hcache, hfree, ⟨rfl, -⟩ | ⟨db, hok, rfl, rfl⟩⟩ := checkpoint_cases h
  · exact .same _
  refine row_patch hok fun job hid hrow howns => ?_
  subst hid
  exact .checkpointed job rfl rfl ha rfl howns
    (ownedFree_iff.mp hfree job (owned_eq_some_iff.mpr ⟨hrow, howns⟩)) hcall hcache

private theorem row_writeProgress (h : s.exec (.writeProgress k) = some (s', r)) :
    RowChange s (.writeProgress k) r id (s.db.jobs.get? id) (s'.db.jobs.get? id) := by
  obtain ⟨a, ha, hfree, ⟨rfl, -⟩ | ⟨value, db, hok, rfl, rfl⟩⟩ := writeProgress_cases h
  · exact .same _
  refine row_patch hok fun job hid hrow howns => ?_
  subst hid
  exact .progressed job rfl ha rfl howns
    (ownedFree_iff.mp hfree job (owned_eq_some_iff.mpr ⟨hrow, howns⟩))

private theorem row_retry {runAt : Time} (h : s.exec (.retry now k runAt) = some (s', r)) :
    RowChange s (.retry now k runAt) r id (s.db.jobs.get? id) (s'.db.jobs.get? id) := by
  obtain ⟨a, ha, hfree, -, ⟨-, rfl, -⟩ | ⟨job, hown, rfl, rfl⟩⟩ := retry_cases h
  · exact .same _
  obtain ⟨hrow, howns⟩ := owned_eq_some_iff.mp hown
  rw [Db.updateJob_jobs, Table.get?_update]
  by_cases hid : id = a.job.id
  · subst hid
    simp only [if_true, hrow, Option.map_some]
    exact .retried job rfl ha rfl howns (ownedFree_iff.mp hfree job hown) rfl
  · rw [if_neg hid]; exact .same _

private theorem row_claim {pool : PoolId} {id' : JobId} {jobOutcomes : Bool}
    (h : s.claim now pool id' jobOutcomes = some (s', r)) :
    RowChange s (.claim now pool id' jobOutcomes) r id (s.db.jobs.get? id)
      (s'.db.jobs.get? id) := by
  obtain ⟨job, hrow, hclaim, hfree, hnow, -, rfl⟩ := claim_cases h
  rw [get?_getJob]
  by_cases hid : id = id'
  · subst hid
    simp only [if_true, hrow, Option.map_some]
    exact .claimed job rfl hfree hclaim hnow
  · rw [if_neg hid]; exact .same _

/-- What creating a group does to a row that exists. -/
theorem createWait_row (now : Time) (key : GroupKey) (call : WaitCall) (prepared : List Prepared) {db : Db}
    (hids : db.IdsBelow) {job : Job} (hrow : db.jobs.get? id = some job) :
    ∃ mid, Queued job mid ∧ (createWait now key call prepared db).1.jobs.get? id = some mid := by
  have henq := enqueued_enqueueChildren now call.queue (call.inputs.zip prepared)
    (show (insertGroup now key call db).IdsBelow from hids)
  obtain ⟨mid, hmid, hr⟩ := henq.kept id job hrow
  simp only [createWait, get?_markWaited, insertWaits_jobs, hmid, Option.map_some,
    Option.some.injEq, exists_eq_right']
  refine ⟨mid, hr, ?_⟩
  split
  · rename_i h
    exact .inr ⟨h.2, rfl⟩
  · exact .inl rfl

/-- The rows after a wait created its group: children queued, the parent suspended. -/
private theorem row_createWait (hwf : Wf s) {own : JobId} {call : WaitCall} {suspended : Bool}
    {a : Attempt} {prepared : List Prepared}
    (htx : s.txs.get? own = some ⟨k, now, .waitLooked call suspended none⟩)
    (ha : s.attempts.get? k = some a) (hid : a.job.id = own)
    (hfree : s.childrenFree own now call.queue (call.inputs.zip prepared)
      (insertGroup now (own, call.waitId) call s.db) = true) :
    RowChange s (.waitCommit own prepared) (.entered .suspended) id (s.db.jobs.get? id)
      ((suspendJob (own, call.waitId) suspended
        (createWait now (own, call.waitId) call prepared s.db).1).jobs.get? id) := by
  have hids : (insertGroup now (own, call.waitId) call s.db).IdsBelow := hwf.idsBelow
  have henq := enqueued_enqueueChildren now call.queue (call.inputs.zip prepared) hids
  rcases hadd : enqueueChildren now call.queue (call.inputs.zip prepared)
    (insertGroup now (own, call.waitId) call s.db) with ⟨db₁, ids⟩
  rw [hadd] at henq
  have hcreate : (createWait now (own, call.waitId) call prepared s.db).1 =
      markWaited ids (insertWaits (own, call.waitId) ids db₁) := by
    simp [createWait, hadd]
  have hgroup : (markWaited ids (insertWaits (own, call.waitId) ids db₁)).groups.get?
      (own, call.waitId) = some (call.newGroup now) := by
    have hgroups : db₁.groups = (insertGroup now (own, call.waitId) call s.db).groups := henq.groups
    simp [hgroups]
  rw [hcreate, get?_suspendJob hgroup, get?_markWaited, insertWaits_jobs]
  cases hrow : s.db.jobs.get? id with
  | none =>
    have hne : id ≠ own := by
      rintro rfl
      obtain ⟨-, job, hjob, -⟩ := owned_of_tx hwf htx ha
      simp [hrow] at hjob
    rw [if_neg hne]
    cases hrow' : db₁.jobs.get? id with
    | none => exact .same none
    | some job' =>
      obtain ⟨hle, hlock⟩ := henq.fresh id job' hrow' hrow
      have hunspent := henq.unspent id job' hrow' hrow
      refine .inserted _ hle ?_ (.inr ⟨_, _, rfl⟩) ?_
      · dsimp only
        split <;> exact hlock
      · dsimp only
        split <;> exact hunspent
  | some job =>
    obtain ⟨mid, hmid, hr⟩ := henq.kept id job hrow
    have hqueued : Queued job (if id ∈ ids ∧ mid.payload.isObject = true then
        mid.setPayload (Payload.markWaited mid.payload) else mid) := by
      refine ⟨mid, hr, ?_⟩
      split
      · rename_i h; exact .inr ⟨h.2, rfl⟩
      · exact .inl rfl
    simp only [hmid, Option.map_some]
    by_cases hown : id = own
    · subst hown
      rw [if_pos rfl]
      have hmissing : s.db.groups.get? (id, call.waitId) = none := by
        obtain ⟨-, -, -, -, -, -, -, -, -, -, -, hfound⟩ := hwf.tx id _ htx
        simpa [findGroup] using hfound.symm
      exact .suspended job _ rfl htx ha rfl hqueued (by simp) (by simp [hmissing])
    · rw [if_neg hown]
      by_cases hheld : s.txs.get? id = none
      · exact .queued job _ hheld hqueued (.inr ⟨_, _, rfl⟩)
      · obtain ⟨hsame, hnot⟩ := enqueueChildren_held hids hfree hheld (Ne.symm hown) hrow
        rw [hadd] at hsame hnot
        obtain rfl : mid = job := by simpa [hmid] using hsame
        rw [if_neg (fun h => hnot h.1)]
        exact .same _

private theorem row_waitCommit (hwf : Wf s) {own : JobId} {prepared : List Prepared}
    (h : s.waitCommit own prepared = some (s', r)) :
    RowChange s (.waitCommit own prepared) r id (s.db.jobs.get? id) (s'.db.jobs.get? id) := by
  obtain ⟨k, now, call, suspended, found, a, htx, ha, hprep, ⟨rfl, -⟩ |
    ⟨db, entered, hok, rfl, rfl⟩⟩ := waitCommit_cases h
  · exact .same _
  obtain ⟨hid, job, hrow, hown⟩ := owned_of_tx hwf htx ha
  cases found with
  | none =>
    rw [enterWait_missing, hid] at hok
    simp only [Except.ok.injEq, Prod.mk.injEq] at hok
    obtain ⟨rfl, rfl⟩ := hok
    exact row_createWait hwf htx ha hid (hprep rfl).2
  | some group =>
    obtain ⟨checkpoint, -, rfl, hfin⟩ | ⟨-, -, rfl, rfl⟩ := enterWait_found hok
    -- The checkpoint is a patch of the parent's own row.
    · obtain ⟨-, db₁, hwrite, rfl⟩ := finishWait_ok hfin
      rw [deleteGroup_jobs]
      refine row_patch hwrite fun row hid' hrow' _ => ?_
      obtain rfl : id = own := hid'.symm.trans hid
      exact .finished row rfl htx ha rfl
    · rw [hid]
      cases hgroup : s.db.groups.get? (own, call.waitId) with
      | none =>
        have hsusp : suspendJob (own, call.waitId) suspended s.db = s.db := by
          simp [suspendJob, hgroup]
        rw [hsusp]; exact .same _
      | some g =>
        rw [get?_suspendJob hgroup]
        by_cases hne : id = own
        · subst hne
          simp only [if_true, hrow, Option.map_some]
          exact .suspended job job rfl htx ha rfl (.refl job) (fun _ => rfl) (by simp [hgroup])
        · rw [if_neg hne]; exact .same _

/-- The whole effect of a continuation's commit, from what its transaction read. -/
theorem continue_tables (hwf : Wf s) {own : JobId} {job : Job} {runAt : Option Time}
    {traceparent : Option String} {progress : Option Json} {a : Attempt} {outcome : Bool} {db : Db}
    {next : JobId}
    (htx : s.txs.get? own = some ⟨k, now, .continuing job runAt traceparent progress⟩)
    (ha : s.attempts.get? k = some a)
    (hok : continueJob now a.job job runAt traceparent progress outcome s.db = .ok (db, next)) :
    next = s.db.nextId ∧ db.nextId = s.db.nextId + 1 ∧ db.groups = s.db.groups ∧
      (∀ id, db.jobs.get? id =
        if id = s.db.nextId then some (newJob now (continueSpec job runAt traceparent progress))
        else if id = own then (if outcome then none else some job.retired)
        else s.db.jobs.get? id) ∧
      db.waits = if Payload.waited job.payload then (retargetWaits own s.db.nextId s.db).waits
        else s.db.waits := by
  obtain ⟨hid, row, hrow, hown⟩ := owned_of_tx hwf htx ha
  -- The row read at the start is still the row.
  obtain rfl : job = row := by
    obtain ⟨a', row', -, -, hrow', -, -, hstage⟩ := hwf.tx own _ htx
    obtain rfl : row' = row := by simpa [hrow] using hrow'.symm
    exact hstage.1
  obtain ⟨db', hok', hnext, hgroups, hrows, hwaits⟩ := continueJob_ok now runAt traceparent progress
    outcome hwf.idsBelow hwf.keysUnique hown
  simp only [hok, Except.ok.injEq, Prod.mk.injEq] at hok'
  obtain ⟨rfl, rfl⟩ := hok'
  rw [hid] at hrows hwaits
  exact ⟨rfl, hnext, hgroups, hrows, hwaits⟩

private theorem row_continueCommit (hwf : Wf s) {own : JobId}
    (h : s.continueCommit own = some (s', r)) :
    RowChange s (.continueCommit own) r id (s.db.jobs.get? id) (s'.db.jobs.get? id) := by
  obtain ⟨k, now, job, runAt, traceparent, progress, a, htx, ha, -, ⟨rfl, -⟩ |
    ⟨db, next, hok, rfl, rfl⟩⟩ := continueCommit_cases h
  · exact .same _
  obtain ⟨rfl, -, -, hrows, -⟩ := continue_tables hwf htx ha hok
  rw [hrows]
  by_cases hnew : id = s.db.nextId
  · have hnone : s.db.jobs.get? id = none := by
      cases hget : s.db.jobs.get? id with
      | none => rfl
      | some j => exact absurd (hnew ▸ hwf.idsBelow _ _ hget) (lt_irrefl _)
    rw [if_pos hnew, hnone, hnew]
    exact .continuation rfl htx rfl rfl
  · rw [if_neg hnew]
    by_cases hself : id = own
    · subst hself
      obtain ⟨a', row, -, -, hrow, -, -, rfl, -⟩ := hwf.tx id _ htx
      rw [if_pos rfl, hrow]
      cases hout : a.jobOutcomes with
      | true => exact .continuedAway job rfl htx ha rfl hout
      | false => exact .continued job rfl htx ha rfl hout
    · rw [if_neg hself]; exact .same _

/-- Every step changes a job row in one of the listed ways. -/
theorem row_change (hwf : Wf s) (h : s.exec e = some (s', r)) (id : JobId) :
    RowChange s e r id (s.db.jobs.get? id) (s'.db.jobs.get? id) := by
  cases e with
  | tick d =>
    simp only [exec, Option.some.injEq, Prod.mk.injEq] at h
    obtain ⟨rfl, -⟩ := h
    exact .same _
  | addJob now spec =>
    obtain ⟨hguard, rfl⟩ := addJob_cases h
    exact row_addJob hwf hguard.1
  | claim now pool id' jobOutcomes => exact row_claim h
  | failJob now pool id' error =>
    obtain ⟨hguard, rfl⟩ := failJob_cases h
    refine row_map (f := fun i job => if i = id' ∧ job.lockedByPool pool = true
      then job.fail now error else job) (fun _ => get?_failJob) fun job _ => ?_
    by_cases hfail : id = id' ∧ job.lockedByPool pool = true
    · obtain ⟨rfl, hpool⟩ := hfail
      refine .inr ?_
      rw [if_pos ⟨rfl, hpool⟩]
      refine .unlocked job (by simpa [rowFree] using hguard.1) ?_ hguard.2 (.inl ⟨_, _, rfl⟩)
      cases hlock : job.lock with
      | none => simp [Job.lockedByPool, hlock] at hpool
      | some lock => rfl
    · exact .inl (if_neg hfail)
  | completeJob pool id' =>
    obtain ⟨hguard, rfl⟩ := completeJob_cases h
    rw [get?_completeJob]
    by_cases hid : id = id'
    · subst hid
      rw [if_pos rfl]
      cases hrow : s.db.jobs.get? id with
      | none => exact .same none
      | some job => exact .deleted job (by simpa [rowFree] using hguard)
    · rw [if_neg hid]; exact .same _
  | release now pools =>
    obtain ⟨hguard, rfl⟩ := release_cases h
    exact row_release hguard.1 hguard.2
  | checkpoint k stepId output resolved => exact row_checkpoint h
  | setProgress k value =>
    obtain ⟨a, -, rfl⟩ := setProgress_cases h
    exact .same _
  | writeProgress k => exact row_writeProgress h
  | retry now k runAt => exact row_retry h
  | settle now k settle visible => exact row_settle h
  | waitBegin now k call =>
    obtain ⟨a, -, -, -, -, -, ⟨rfl, -⟩ | ⟨job, -, -, -, rfl⟩⟩ := waitBegin_cases h
    · exact .same _
    · exact .same _
  | waitLookup id' =>
    obtain ⟨k, now, call, suspended, -, -, rfl⟩ := waitLookup_cases h
    exact .same _
  | waitCommit id' prepared => exact row_waitCommit hwf h
  | continueBegin now k runAt traceparent =>
    obtain ⟨a, -, -, -, -, ⟨rfl, -⟩ | ⟨-, ⟨-, -, rfl⟩ | ⟨job, -, -, rfl⟩⟩⟩ := continueBegin_cases h
    · exact .same _
    · exact .same _
    · exact .same _
  | continueCommit id' => exact row_continueCommit hwf h
  | rollback id' =>
    simp only [exec] at h
    split at h
    · cases h
    · simp only [Option.some.injEq, Prod.mk.injEq] at h
      obtain ⟨rfl, -⟩ := h
      exact .same _
  | sweepLost now seen skipped =>
    obtain ⟨hguard, rfl⟩ := sweepLost_cases h
    rcases reportWaits_row id hguard.2 hguard.1 with
      hsame | ⟨row, t, hrow, htx, hle, ht, ⟨hwake, hmin⟩, hmap⟩
    · change RowChange _ _ _ _ _ ((reportWaits now (lostReport s.db seen skipped) s.db).jobs.get? id)
      rw [hsame]; exact .same _
    · change RowChange _ _ _ _ _ ((reportWaits now (lostReport s.db seen skipped) s.db).jobs.get? id)
      rw [hmap, hrow]; exact .woken row htx hle ht ⟨now, by simp [wakesAt, hwake], hmin⟩
  | sweepWake now =>
    obtain ⟨hguard, rfl⟩ := sweepWake_cases h
    exact row_sweepWake hwf hguard
  | sweepOrphans =>
    simp only [exec, Option.some.injEq, Prod.mk.injEq] at h
    obtain ⟨rfl, -⟩ := h
    exact .same _

/-- Only an enqueue replaces a payload, and only that of an unlocked row with a key. -/
theorem replaces_cases (hwf : Wf s) (h : s.exec e = some (s', r)) (hrep : s.replaces s' id = true) :
    ∃ job job', s.db.jobs.get? id = some job ∧ s'.db.jobs.get? id = some job' ∧
      job.lock = none ∧ job.key ≠ none ∧ s.txs.get? id = none ∧ Queued job job' ∧
      ((∃ now spec, e = .addJob now spec) ∨ ∃ id' prepared, e = .waitCommit id' prepared) := by
  obtain ⟨job, hrow, hany⟩ := (Option.any_eq_true _ _).mp hrep
  obtain ⟨job', hrow', hlt⟩ := (Option.any_eq_true _ _).mp hany
  have hlt : job.generation < job'.generation := of_decide_eq_true hlt
  have hchange := row_change hwf h id
  rw [hrow, hrow'] at hchange
  cases hchange with
  | queued _ _ hfree hq he =>
    exact ⟨job, job', hrow, hrow', hq.unlocked hlt, hq.keyed hlt, hfree, hq, he⟩
  | suspended _ mid he htx ha hr hq =>
    obtain ⟨-, row, hrow₁, hown⟩ := owned_of_tx hwf htx ha
    obtain rfl : row = job := Option.some.inj (hrow₁.symm.trans hrow)
    obtain ⟨lock, hlock, -⟩ := owns_iff.mp (owned_eq_some_iff.mp hown).2
    rw [hq.unlocked hlt] at hlock
    cases hlock
  | continued =>
    have hgen : job.retired.generation = job.generation := by unfold Job.retired; split <;> rfl
    exact absurd hlt (by rw [hgen]; exact lt_irrefl _)
  | same | claimed | unlocked | checkpointed | progressed | woken | retried | exhausted | finished =>
    exact absurd hlt (lt_irrefl _)

end State

end BetterGraphileWorker
