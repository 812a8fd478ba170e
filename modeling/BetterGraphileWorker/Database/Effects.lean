-- SUMMARY: Spec lemmas of the statements: the rows of each table after a statement, in terms of the rows before it.
import Mathlib.Data.List.Induction
import BetterGraphileWorker.Database.Enqueue

/-!
# Effects

One lemma per statement and table. Later proofs use these and never unfold a statement.
-/

namespace BetterGraphileWorker

variable {db db' : Db} {now : Time} {pool : PoolId} {id id' : JobId} {job : Job}
  {helpers : HelpersJob}

/-! ## The attempt's lock -/

theorem owned_eq_some_iff :
    db.owned helpers = some job ↔ db.jobs.get? helpers.id = some job ∧ helpers.owns job = true := by
  simp [Db.owned, Option.filter_eq_some_iff]

theorem owns_iff : helpers.owns job = true ↔ ∃ lock, job.lock = some lock ∧
    lock.lockedBy = helpers.lockedBy ∧ truncateMs lock.lockedAt = helpers.lockedAt := by
  cases hlock : job.lock <;> simp [HelpersJob.owns, hlock]

/-- `owned()` reads the lock columns only. -/
theorem owns_congr {job' : Job} (h : job'.lock = job.lock) : helpers.owns job' = helpers.owns job := by
  simp [HelpersJob.owns, h]

/-! ## Graphile's updates -/

theorem get?_failJob {error : String} : (failJob now pool id error db).jobs.get? id' =
    (db.jobs.get? id').map fun job =>
      if id' = id ∧ job.lockedByPool pool = true then job.fail now error else job := by
  cases hget : (db.jobs.get? id).filter (·.lockedByPool pool) with
  | none =>
    have hnone := Option.filter_eq_none_iff.mp hget
    cases hrow : db.jobs.get? id' with
    | none => simp [failJob, hget, hrow]
    | some row =>
      have hne : ¬(id' = id ∧ row.lockedByPool pool = true) := fun h => by
        obtain ⟨rfl, hp⟩ := h
        exact hnone row hrow hp
      simp [failJob, hget, hrow, hne]
  | some job =>
    obtain ⟨hrow, hpool⟩ := Option.filter_eq_some_iff.mp hget
    by_cases hid : id' = id
    · subst hid
      simp [failJob, Option.filter, Table.get?_update, hrow, hpool]
    · simp [failJob, hget, Table.get?_update, hid]

@[simp] theorem failJob_groups {error : String} : (failJob now pool id error db).groups = db.groups := by
  unfold failJob; split <;> rfl

@[simp] theorem failJob_waits {error : String} : (failJob now pool id error db).waits = db.waits := by
  unfold failJob; split <;> rfl

@[simp] theorem failJob_nextId {error : String} : (failJob now pool id error db).nextId = db.nextId := by
  unfold failJob; split <;> rfl

theorem get?_completeJob : (completeJob pool id db).jobs.get? id' =
    if id' = id then none else db.jobs.get? id' := by
  cases hget : db.jobs.get? id with
  | none =>
    by_cases h : id' = id
    · subst h; simp [completeJob, hget]
    · simp [completeJob, hget, h]
  | some job => simp [completeJob, hget, Db.deleteJob, Table.get?_erase]

@[simp] theorem completeJob_groups : (completeJob pool id db).groups = db.groups := by
  unfold completeJob; split <;> rfl

@[simp] theorem completeJob_waits : (completeJob pool id db).waits = db.waits := by
  unfold completeJob; split <;> rfl

@[simp] theorem completeJob_nextId : (completeJob pool id db).nextId = db.nextId := by
  unfold completeJob; split <;> rfl

@[simp] theorem get?_getJob : (getJob now pool id job db).jobs.get? id' =
    if id' = id then (db.jobs.get? id').map (·.lockFor ⟨pool, now⟩) else db.jobs.get? id' := by
  simp [getJob, Table.get?_update]

@[simp] theorem getJob_groups : (getJob now pool id job db).groups = db.groups := rfl
@[simp] theorem getJob_waits : (getJob now pool id job db).waits = db.waits := rfl
@[simp] theorem getJob_nextId : (getJob now pool id job db).nextId = db.nextId := rfl

/-! ## Writes of the owner -/

theorem scheduleRetry_ok {runAt : Time} {res : Db × Time}
    (h : scheduleRetry now helpers runAt db = .ok res) :
    ∃ job, db.owned helpers = some job ∧
      res.1 = db.updateJob helpers.id (·.setRunAt (runAt - graphileBackoff job.attempts)) := by
  unfold scheduleRetry at h
  split at h
  · cases h
  · rename_i job hown
    obtain rfl := Except.ok.inj h
    exact ⟨job, hown, rfl⟩

theorem patchEnvelope_ok {patch : Json → Json} (h : patchEnvelope helpers patch db = .ok db') :
    ∃ job, db.owned helpers = some job ∧ Payload.patchable job.payload = true ∧
      db' = db.updateJob helpers.id (·.setPayload (patch job.payload)) := by
  unfold patchEnvelope at h
  split at h
  · cases h
  · rename_i job hown
    split at h
    · rename_i hp
      exact ⟨job, hown, hp, by simpa using h.symm⟩
    · cases h

/-- A patch of the owner's envelope, on the row. -/
theorem get?_patchEnvelope {patch : Json → Json} (h : patchEnvelope helpers patch db = .ok db') :
    db'.jobs.get? id' = if id' = helpers.id then
      (db.jobs.get? id').map fun job => job.setPayload (patch job.payload) else db.jobs.get? id' := by
  obtain ⟨job, hown, -, rfl⟩ := patchEnvelope_ok h
  have hrow := (owned_eq_some_iff.mp hown).1
  by_cases hid : id' = helpers.id
  · subst hid; simp [Table.get?_update, hrow]
  · simp [Table.get?_update, hid]

theorem patchEnvelope_frame {patch : Json → Json} (h : patchEnvelope helpers patch db = .ok db') :
    db'.groups = db.groups ∧ db'.waits = db.waits ∧ db'.nextId = db.nextId := by
  obtain ⟨job, -, -, rfl⟩ := patchEnvelope_ok h
  exact ⟨rfl, rfl, rfl⟩

/-! ## Reports -/

section
variable {report : Report} {key : WaitKey} {group : GroupKey}

/-- A wait row after a report. -/
def Wait.reported (now : Time) (report : Report) (key : WaitKey) (wait : Wait) : Wait :=
  match report.resolution key wait with
  | none => wait
  | some result => wait.setResult result.toJson now

@[simp] theorem Wait.reported_child {wait : Wait} :
    (Wait.reported now report key wait).child = wait.child := by
  unfold Wait.reported
  split <;> rfl

theorem Wait.pending_of_reported {wait : Wait}
    (h : (Wait.reported now report key wait).pending = true) : wait.pending = true := by
  unfold Wait.reported at h
  split at h
  · exact h
  · cases h

@[simp] theorem get?_reportWaits_waits : (reportWaits now report db).waits.get? key =
    (db.waits.get? key).map (Wait.reported now report key) := by
  simp only [reportWaits, wakeParents, resolveWaits, Table.get?_modify]
  rfl

/-- Two reports say the same of every row that exists. -/
def Report.Agrees (report report' : Report) (db : Db) : Prop :=
  ∀ key wait, db.waits.get? key = some wait → report key wait = report' key wait

theorem reported_congr {report' : Report} (h : report.Agrees report' db) :
    db.reported report = db.reported report' := by
  funext group
  refine Table.count_congr_get? fun key wait hget => ?_
  simp only [Report.resolution, h key wait hget]

theorem reportWaits_congr {report' : Report} (h : report.Agrees report' db) :
    reportWaits now report db = reportWaits now report' db := by
  have hwaits : resolveWaits now report db = resolveWaits now report' db := by
    simp only [resolveWaits, Db.mk.injEq, true_and, and_true]
    apply Table.modify_congr
    intro kr hkr
    simp only [Report.resolution, h kr.1 kr.2 (Table.get?_eq_some_iff.mpr hkr)]
  rw [reportWaits, reportWaits, hwaits, reported_congr h]

@[simp] theorem get?_reportWaits_groups : (reportWaits now report db).groups.get? group =
    (db.groups.get? group).map (·.countDown (db.reported report group)) := by
  simp [reportWaits, wakeParents, resolveWaits]

theorem get?_reportWaits_jobs : (reportWaits now report db).jobs.get? id =
    (db.jobs.get? id).map fun job =>
      if db.wakesParent (db.reported report) id then job.setRunAt (min job.runAt now) else job := by
  simp only [reportWaits, wakeParents, resolveWaits, Table.get?_modify]
  rfl

@[simp] theorem reportWaits_nextId : (reportWaits now report db).nextId = db.nextId := rfl

theorem Db.wakesParent_iff {n : GroupKey → ℕ} : db.wakesParent n id = true ↔
    ∃ waitId group, db.groups.get? (id, waitId) = some group ∧ 0 < n (id, waitId) ∧
      group.remaining = n (id, waitId) := by
  simp only [Db.wakesParent, Table.any_iff, Group.countDown]
  constructor
  · rintro ⟨⟨parent, waitId⟩, group, hget, h⟩
    simp only [Bool.and_eq_true, decide_eq_true_eq] at h
    obtain ⟨⟨rfl, hn⟩, hz⟩ := h
    exact ⟨waitId, group, hget, hn, by simpa [sub_eq_zero] using hz⟩
  · rintro ⟨waitId, group, hget, hn, hz⟩
    exact ⟨(id, waitId), group, hget, by simp [hn, hz]⟩

end

/-! ## Settling -/

theorem settleJob_true {settle : Settle} {visible : WaitKey → Bool}
    (h : settleJob now helpers settle visible db = (db', true)) :
    ∃ job db₁ db₂, db.owned helpers = some job ∧
      (db₁ = db ∨ ∃ outcome, db₁ = recordOutcome now helpers.id job outcome db) ∧
      (settle.report = none ∧ db₂ = db₁ ∨ ∃ report, settle.report = some report ∧
        db₂ = reportWaits now (childReport helpers.id report visible) db₁) ∧
      db' = settleRow settle.row helpers job db₂ := by
  unfold settleJob at h
  split at h
  · simp at h
  · rename_i job hown
    simp only [Prod.mk.injEq, and_true] at h
    obtain ⟨outcome, report, row⟩ := settle
    cases outcome with
    | none =>
      cases report with
      | none => exact ⟨job, db, db, hown, .inl rfl, .inl ⟨rfl, rfl⟩, h.symm⟩
      | some r => exact ⟨job, db, _, hown, .inl rfl, .inr ⟨r, rfl, rfl⟩, h.symm⟩
    | some o =>
      cases report with
      | none => exact ⟨job, _, _, hown, .inr ⟨o, rfl⟩, .inl ⟨rfl, rfl⟩, h.symm⟩
      | some r => exact ⟨job, _, _, hown, .inr ⟨o, rfl⟩, .inr ⟨r, rfl, rfl⟩, h.symm⟩

/-- What a settling statement leaves in the outcome table. -/
theorem settleJob_outcomes (now : Time) (settle : Settle) (visible : WaitKey → Bool)
    (hown : db.owned helpers = some job) :
    (settleJob now helpers settle visible db).1.outcomes = match settle.outcome with
      | none => db.outcomes
      | some outcome => (recordOutcome now helpers.id job outcome db).outcomes := by
  obtain ⟨outcome, report, row⟩ := settle
  simp only [settleJob, hown]
  cases outcome <;> cases report <;> cases row <;> rfl

theorem settleJob_of_not_owned {settle : Settle} {visible : WaitKey → Bool}
    (h : db.owned helpers = none) : settleJob now helpers settle visible db = (db, false) := by
  simp [settleJob, h]

theorem settleJob_of_owned (now : Time) (settle : Settle) (visible : WaitKey → Bool)
    (h : db.owned helpers = some job) : (settleJob now helpers settle visible db).2 = true := by
  simp [settleJob, h]

theorem get?_settleRow {row : RowMode} : (settleRow row helpers job db).jobs.get? id =
    match row with
    | .keep => db.jobs.get? id
    | .exhaust => if id = helpers.id then (db.jobs.get? id).map Job.exhaust else db.jobs.get? id
    | .delete => if id = helpers.id then none else db.jobs.get? id := by
  cases row <;> simp [settleRow, Table.get?_update, Db.deleteJob, Table.get?_erase]

@[simp] theorem settleRow_groups {row : RowMode} : (settleRow row helpers job db).groups = db.groups := by
  cases row <;> rfl

@[simp] theorem settleRow_waits {row : RowMode} : (settleRow row helpers job db).waits = db.waits := by
  cases row <;> rfl

@[simp] theorem settleRow_nextId {row : RowMode} : (settleRow row helpers job db).nextId = db.nextId := by
  cases row <;> rfl

section
variable {outcome : SettledOutcome}

@[simp] theorem recordOutcome_jobs : (recordOutcome now id job outcome db).jobs = db.jobs := rfl
@[simp] theorem recordOutcome_groups : (recordOutcome now id job outcome db).groups = db.groups := rfl
@[simp] theorem recordOutcome_waits : (recordOutcome now id job outcome db).waits = db.waits := rfl
@[simp] theorem recordOutcome_nextId : (recordOutcome now id job outcome db).nextId = db.nextId := rfl

end

/-! ## Continuing -/

/-- The row that keeps its attempts spent. -/
theorem get?_exhaustOwned (h : db.owned helpers = some job) : (exhaustOwned helpers db).jobs.get? id =
    if id = helpers.id then (db.jobs.get? id).map Job.exhaust else db.jobs.get? id := by
  simp [exhaustOwned, h, Table.get?_update]

@[simp] theorem exhaustOwned_groups : (exhaustOwned helpers db).groups = db.groups := by
  unfold exhaustOwned; split <;> rfl

@[simp] theorem exhaustOwned_waits : (exhaustOwned helpers db).waits = db.waits := by
  unfold exhaustOwned; split <;> rfl

@[simp] theorem exhaustOwned_nextId : (exhaustOwned helpers db).nextId = db.nextId := by
  unfold exhaustOwned; split <;> rfl

@[simp] theorem retargetWaits_jobs : (retargetWaits id id' db).jobs = db.jobs := rfl
@[simp] theorem retargetWaits_groups : (retargetWaits id id' db).groups = db.groups := rfl
@[simp] theorem retargetWaits_nextId : (retargetWaits id id' db).nextId = db.nextId := rfl

@[simp] theorem get?_retargetWaits {key : WaitKey} : (retargetWaits id id' db).waits.get? key =
    (db.waits.get? key).map fun wait =>
      if wait.child = id ∧ wait.pending = true then { wait with child := id' } else wait := by
  simp [retargetWaits]

/-- The row that a continuation leaves behind without job outcomes. -/
def Job.retired (job : Job) : Job := (if job.key.isSome then job.superseded else job).exhaust

@[simp] theorem Job.retired_lock : job.retired.lock = job.lock := by
  unfold Job.retired; split <;> rfl

theorem Job.retired_key {job : Job} : job.retired.key = none := by
  unfold Job.retired
  split
  · rfl
  · rename_i h
    simpa [Job.exhaust] using h

/-- The plan of the enqueue inside `continueJob`: the owner's own row makes room. -/
theorem planAdd_continueSpec (runAt : Option Time) (traceparent : Option String)
    (progress : Option Json) (hkeys : db.KeysUnique) (hown : db.owned helpers = some job) :
    planAdd db (continueSpec job runAt traceparent progress) =
      if job.key.isSome then .supersede helpers.id else .insert := by
  obtain ⟨hrow, howns⟩ := owned_eq_some_iff.mp hown
  obtain ⟨lock, hlock, -⟩ := owns_iff.mp howns
  cases hkey : job.key with
  | none => exact planAdd_of_keyless hkey
  | some key => exact planAdd_of_locked hkeys hrow (by simp [hlock]) hkey hkey rfl

/-- After the enqueue inside `continueJob` the owner still owns its row. -/
theorem owned_addJob_continueSpec (now : Time) (runAt : Option Time) (traceparent : Option String)
    (progress : Option Json) (hids : db.IdsBelow) (hkeys : db.KeysUnique)
    (hown : db.owned helpers = some job) :
    (addJob now (continueSpec job runAt traceparent progress) db).1.owned helpers =
      some (if job.key.isSome then job.superseded else job) := by
  obtain ⟨hrow, howns⟩ := owned_eq_some_iff.mp hown
  have hplan := planAdd_continueSpec runAt traceparent progress hkeys hown
  have hrow' : (planAdd db (continueSpec job runAt traceparent progress)).row now
      (continueSpec job runAt traceparent progress) helpers.id job =
      if job.key.isSome then job.superseded else job := by
    rw [hplan]; split <;> simp [AddPlan.row]
  rw [owned_eq_some_iff, addJob_kept now _ hids hrow, hrow']
  refine ⟨rfl, ?_⟩
  rw [← howns]
  split <;> rfl

/-- The whole effect of `continueJob`; under the row's lock it cannot fail. -/
theorem continueJob_ok (now : Time) (runAt : Option Time) (traceparent : Option String)
    (progress : Option Json) (outcome : Bool) (hids : db.IdsBelow) (hkeys : db.KeysUnique)
    (hown : db.owned helpers = some job) :
    ∃ db', continueJob now helpers job runAt traceparent progress outcome db = .ok (db', db.nextId) ∧
      db'.nextId = db.nextId + 1 ∧ db'.groups = db.groups ∧
      (∀ id, db'.jobs.get? id =
        if id = db.nextId then some (newJob now (continueSpec job runAt traceparent progress))
        else if id = helpers.id then (if outcome then none else some job.retired)
        else db.jobs.get? id) ∧
      db'.waits = if Payload.waited job.payload then (retargetWaits helpers.id db.nextId db).waits
        else db.waits := by
  obtain ⟨hrow, howns⟩ := owned_eq_some_iff.mp hown
  have hplan := planAdd_continueSpec runAt traceparent progress hkeys hown
  have hne : helpers.id ≠ db.nextId := fun h => absurd (h ▸ hids _ _ hrow) (lt_irrefl _)
  obtain ⟨spec, hspec⟩ : ∃ spec, spec = continueSpec job runAt traceparent progress := ⟨_, rfl⟩
  rw [← hspec] at hplan ⊢
  have hnew : (planAdd db spec).existing = none := by
    rw [hplan]; split <;> rfl
  have hother : ∀ id job', id ≠ helpers.id → (planAdd db spec).row now spec id job' = job' := by
    intro id job' hid
    rw [hplan]; split <;> simp [AddPlan.row, hid]
  rcases hadd : addJob now spec db with ⟨db₁, next⟩
  have hnext : next = db.nextId := by
    simpa [hadd, hnew] using addJob_snd now spec db
  have hdb₁ : db₁ = (addJob now spec db).1 := by rw [hadd]
  subst hnext
  -- The owner's row after `add_job` is still owned, so `max_attempts` is spent.
  have hown₁ : db₁.owned helpers = some (if job.key.isSome then job.superseded else job) := by
    rw [hdb₁, hspec]
    exact owned_addJob_continueSpec now runAt traceparent progress hids hkeys hown
  set db₂ := exhaustOwned helpers db₁ with hdb₂
  set db₃ := if Payload.waited job.payload then retargetWaits helpers.id db.nextId db₂ else db₂
    with hdb₃
  have hrows : ∀ id, db₃.jobs.get? id =
      if id = db.nextId then some (newJob now spec)
      else if id = helpers.id then some job.retired else db.jobs.get? id := by
    intro id
    have hjobs : db₃.jobs = db₂.jobs := by rw [hdb₃]; split <;> rfl
    rw [hjobs, hdb₂, get?_exhaustOwned hown₁]
    by_cases hid : id = helpers.id
    · subst hid
      rw [if_pos rfl, (owned_eq_some_iff.mp hown₁).1, if_neg hne, if_pos rfl]
      rfl
    · rw [if_neg hid, if_neg hid, hdb₁, get?_addJob]
      by_cases hid' : id = db.nextId
      · rw [if_pos ⟨hid', hnew⟩, if_pos hid']
      · rw [if_neg (fun h => hid' h.1), if_neg hid']
        simp [hother id _ hid]
  have hnextId : db₃.nextId = db.nextId + 1 := by
    have : db₃.nextId = db₁.nextId := by rw [hdb₃]; split <;> simp [hdb₂]
    rw [this, hdb₁, addJob_nextId, if_pos hnew]
  have hgroups : db₃.groups = db.groups := by
    have : db₃.groups = db₁.groups := by rw [hdb₃]; split <;> simp [hdb₂]
    rw [this, hdb₁, addJob_groups]
  have hwaits : db₃.waits = if Payload.waited job.payload then
      (retargetWaits helpers.id db.nextId db).waits else db.waits := by
    have : db₂.waits = db.waits := by rw [hdb₂, exhaustOwned_waits, hdb₁, addJob_waits]
    rw [hdb₃]
    split
    · simp [retargetWaits, this]
    · exact this
  cases outcome with
  | false =>
    refine ⟨db₃, ?_, hnextId, hgroups, ?_, hwaits⟩
    · simp only [continueJob, ← hspec, hadd]
      rfl
    · simpa using hrows
  | true =>
    have hown₃ : db₃.owned helpers = some job.retired := by
      rw [owned_eq_some_iff, hrows, if_neg hne, if_pos rfl]
      refine ⟨rfl, ?_⟩
      rw [owns_congr Job.retired_lock, howns]
    have hsettle : settleJob now helpers ⟨some (.continued db.nextId), none, .delete⟩ (fun _ => true)
        db₃ = (settleRow .delete helpers job.retired
          (recordOutcome now helpers.id job.retired (.continued db.nextId) db₃), true) := by
      simp [settleJob, hown₃]
    refine ⟨settleRow .delete helpers job.retired
      (recordOutcome now helpers.id job.retired (.continued db.nextId) db₃), ?_, ?_, ?_, ?_, ?_⟩
    · simp only [continueJob, ← hspec, hadd, if_true]
      rw [← hdb₂, ← hdb₃, hsettle]
    · simpa using hnextId
    · simpa using hgroups
    · intro id
      rw [get?_settleRow]
      simp only [recordOutcome_jobs, hrows, if_true]
      by_cases hid : id = helpers.id
      · subst hid; simp [hne]
      · simp [hid]
    · simpa using hwaits

@[simp] theorem exhaustOwned_outcomes : (exhaustOwned helpers db).outcomes = db.outcomes := by
  unfold exhaustOwned; split <;> rfl

/-- A continuation records the retired row, if it records an outcome at all. -/
theorem continueJob_outcomes {runAt : Option Time} {traceparent : Option String}
    {progress : Option Json} {outcome : Bool} {next : JobId} (hids : db.IdsBelow)
    (hkeys : db.KeysUnique) (hown : db.owned helpers = some job)
    (h : continueJob now helpers job runAt traceparent progress outcome db = .ok (db', next)) :
    db'.outcomes = if outcome then (recordOutcome now helpers.id job.retired (.continued next) db).outcomes
      else db.outcomes := by
  have hown₁ := owned_addJob_continueSpec now runAt traceparent progress hids hkeys hown
  rcases hadd : addJob now (continueSpec job runAt traceparent progress) db with ⟨db₁, id⟩
  have houtcomes : db₁.outcomes = db.outcomes := by
    have hdb₁ : db₁ = (addJob now (continueSpec job runAt traceparent progress) db).1 := by rw [hadd]
    rw [hdb₁, addJob_outcomes]
  rw [hadd] at hown₁
  simp only [continueJob, hadd] at h
  set db₂ := exhaustOwned helpers db₁ with hdb₂
  set db₃ := if Payload.waited job.payload then retargetWaits helpers.id id db₂ else db₂ with hdb₃
  have hown₃ : db₃.owned helpers = some job.retired := by
    have hjobs : db₃.jobs = db₂.jobs := by rw [hdb₃]; split <;> rfl
    obtain ⟨hrow₁, howns₁⟩ := owned_eq_some_iff.mp hown₁
    rw [owned_eq_some_iff, hjobs, hdb₂, get?_exhaustOwned hown₁, if_pos rfl, hrow₁]
    exact ⟨rfl, howns₁⟩
  have houtcomes₃ : db₃.outcomes = db.outcomes := by
    rw [hdb₃, ← houtcomes]
    split <;> simp [hdb₂, retargetWaits]
  cases outcome with
  | false =>
    simp only [Bool.false_eq_true, if_false, Except.ok.injEq, Prod.mk.injEq] at h ⊢
    rw [← h.1, houtcomes₃]
  | true =>
    have hsettled := settleJob_outcomes now
      ⟨some (.continued id), none, .delete⟩ (fun _ => true) hown₃
    simp only [if_true] at h ⊢
    split at h
    · rename_i db₄ hsettle
      simp only [Except.ok.injEq, Prod.mk.injEq] at h
      obtain ⟨rfl, rfl⟩ := h
      simp only [hsettle] at hsettled
      rw [hsettled]
      simp only [recordOutcome, houtcomes₃]
    · cases h

/-! ## Waiting -/

section
variable {key : GroupKey} {call : WaitCall} {prepared : List Prepared} {suspended : Bool}
  {ids : List JobId} {waitKey : WaitKey}

theorem get?_markWaited : (markWaited ids db).jobs.get? id = (db.jobs.get? id).map fun job =>
    if id ∈ ids ∧ job.payload.isObject = true then
      job.setPayload (Payload.markWaited job.payload) else job := by
  simp [markWaited]

private theorem get?_foldl_insert (l : List (JobId × ℕ)) (waits : Table WaitKey Wait) :
    (l.foldl (fun (waits : Table WaitKey Wait) (child : JobId × ℕ) =>
      waits.insert (key, child.2) ⟨child.1, none, none⟩) waits).get? waitKey =
    match l.reverse.find? fun child => (key, child.2) = waitKey with
    | some child => some ⟨child.1, none, none⟩
    | none => waits.get? waitKey := by
  induction l using List.reverseRecOn with
  | nil => rfl
  | append_singleton l child ih =>
    simp only [List.foldl_append, List.foldl_cons, List.foldl_nil, List.reverse_append,
      List.reverse_cons, List.reverse_nil, List.nil_append, List.singleton_append,
      List.find?_cons, Table.get?_insert, ih]
    by_cases h : waitKey = (key, child.2)
    · simp [h]
    · simp [h, Ne.symm h]

/-- The rows of the new group are the given ids in order, without results. -/
theorem get?_insertWaits_self {idx : ℕ} : (insertWaits key ids db).waits.get? (key, idx) =
    match ids[idx]? with
    | some child => some ⟨child, none, none⟩
    | none => db.waits.get? (key, idx) := by
  simp only [insertWaits, get?_foldl_insert, Prod.mk.injEq, true_and]
  cases hidx : ids[idx]? with
  | none =>
    have hnone : (ids.zipIdx.reverse.find? fun child => child.2 = idx) = none := by
      refine List.find?_eq_none.mpr fun child hmem heq => ?_
      have hget := List.mem_zipIdx_iff_getElem?.mp (List.mem_reverse.mp hmem)
      simp_all
    rw [hnone]
  | some child =>
    cases hfind : ids.zipIdx.reverse.find? fun child => child.2 = idx with
    | none =>
      have hmem : (child, idx) ∈ ids.zipIdx.reverse :=
        List.mem_reverse.mpr (List.mem_zipIdx_iff_getElem?.mpr hidx)
      simpa using List.find?_eq_none.mp hfind _ hmem
    | some found =>
      have hmem := List.mem_zipIdx_iff_getElem?.mp
        (List.mem_reverse.mp (List.mem_of_find?_eq_some hfind))
      have hsnd : found.2 = idx := by simpa using List.find?_some hfind
      rw [hsnd, hidx, Option.some.injEq] at hmem
      simp [hmem]

theorem get?_insertWaits_ne (h : waitKey.1 ≠ key) :
    (insertWaits key ids db).waits.get? waitKey = db.waits.get? waitKey := by
  simp only [insertWaits, get?_foldl_insert]
  have hnone : (ids.zipIdx.reverse.find? fun child => (key, child.2) = waitKey) = none := by
    refine List.find?_eq_none.mpr fun child _ heq => h ?_
    rw [← of_decide_eq_true heq]
  rw [hnone]

@[simp] theorem insertWaits_jobs : (insertWaits key ids db).jobs = db.jobs := rfl
@[simp] theorem insertWaits_groups : (insertWaits key ids db).groups = db.groups := rfl
@[simp] theorem insertWaits_nextId : (insertWaits key ids db).nextId = db.nextId := rfl
@[simp] theorem markWaited_groups : (markWaited ids db).groups = db.groups := rfl
@[simp] theorem markWaited_waits : (markWaited ids db).waits = db.waits := rfl
@[simp] theorem markWaited_nextId : (markWaited ids db).nextId = db.nextId := rfl
@[simp] theorem get?_insertGroup {key' : GroupKey} : (insertGroup now key call db).groups.get? key' =
    if key' = key then some (call.newGroup now) else db.groups.get? key' := by
  simp [insertGroup, Table.get?_insert]

@[simp] theorem insertGroup_jobs : (insertGroup now key call db).jobs = db.jobs := rfl
@[simp] theorem insertGroup_waits : (insertGroup now key call db).waits = db.waits := rfl
@[simp] theorem insertGroup_nextId : (insertGroup now key call db).nextId = db.nextId := rfl

/-- The wait tables after a wait created its group: one row for each input. -/
theorem createWait_tables (now : Time) (key : GroupKey) (hids : db.IdsBelow)
    (hlen : prepared.length = call.inputs.length) :
    (createWait now key call prepared db).1.groups = db.groups.insert key (call.newGroup now) ∧
      (createWait now key call prepared db).1.waits =
        (insertWaits key (createWait now key call prepared db).2 db).waits ∧
      (createWait now key call prepared db).2.length = call.inputs.length := by
  have henq := enqueued_enqueueChildren now call.queue (call.inputs.zip prepared)
    (show (insertGroup now key call db).IdsBelow from hids)
  refine ⟨henq.groups, ?_, ?_⟩
  · simp only [createWait, markWaited_waits, insertWaits, henq.waits, insertGroup_waits]
  · simp [createWait, length_enqueueChildren, hlen]

/-- A wait that creates its group always suspends. -/
theorem enterWait_missing : enterWait now helpers call suspended none prepared db =
    .ok (suspendJob (helpers.id, call.waitId) suspended
      (createWait now (helpers.id, call.waitId) call prepared db).1, .suspended) := by
  have hpos : ((call.inputs.length : ℕ) : ℤ) ≠ 0 := by
    have := List.length_pos_iff.mpr call.nonempty
    omega
  simp only [enterWait, leaveWait]
  rw [if_neg (by simpa using hpos)]

theorem get?_suspendJob {group : Group} (hget : db.groups.get? key = some group) :
    (suspendJob key suspended db).jobs.get? id =
      if id = key.1 then
        (db.jobs.get? id).map (·.suspend group.deadline (if suspended then 0 else 1))
      else db.jobs.get? id := by
  simp [suspendJob, hget, Table.get?_update]

@[simp] theorem suspendJob_groups : (suspendJob key suspended db).groups = db.groups := by
  unfold suspendJob; split <;> rfl

@[simp] theorem suspendJob_waits : (suspendJob key suspended db).waits = db.waits := by
  unfold suspendJob; split <;> rfl

@[simp] theorem suspendJob_nextId : (suspendJob key suspended db).nextId = db.nextId := by
  unfold suspendJob; split <;> rfl

@[simp] theorem get?_deleteGroup_groups {key' : GroupKey} : (deleteGroup key db).groups.get? key' =
    if key' = key then none else db.groups.get? key' := by
  simp [deleteGroup, Table.get?_erase]

@[simp] theorem get?_deleteGroup_waits : (deleteGroup key db).waits.get? waitKey =
    if waitKey.1 = key then none else db.waits.get? waitKey := by
  by_cases h : waitKey.1 = key
  · cases hw : db.waits.get? waitKey <;> simp [deleteGroup, h, hw]
  · cases hw : db.waits.get? waitKey <;> simp [deleteGroup, h, hw]

@[simp] theorem deleteGroup_jobs : (deleteGroup key db).jobs = db.jobs := rfl
@[simp] theorem deleteGroup_nextId : (deleteGroup key db).nextId = db.nextId := rfl

theorem finishWait_ok {waitId : String} {complete : Bool} {checkpoint : WaitCheckpoint}
    (h : finishWait helpers waitId complete db = .ok (db', checkpoint)) :
    checkpoint = waitCheckpoint complete (db.waitsOf (helpers.id, waitId)) ∧
      ∃ db₁, writeCheckpoint helpers waitId (StepCacheEntry.output checkpoint.toJson).toJson db = .ok db₁ ∧
        db' = deleteGroup (helpers.id, waitId) db₁ := by
  simp only [finishWait] at h
  split at h
  · cases h
  · rename_i db₁ hok
    simp only [Except.ok.injEq, Prod.mk.injEq] at h
    obtain ⟨rfl, rfl⟩ := h
    exact ⟨rfl, db₁, hok, rfl⟩

/-- A wait that finds its group checkpoints and deletes it, or suspends on it. -/
theorem enterWait_found {group : FoundGroup} {entered : Entered}
    (h : enterWait now helpers call suspended (some group) prepared db = .ok (db', entered)) :
    (∃ checkpoint, (group.remaining = 0 ∨ group.expired = true) ∧ entered = .finished checkpoint ∧
        finishWait helpers call.waitId (group.remaining = 0) db = .ok (db', checkpoint)) ∨
      (group.remaining ≠ 0 ∧ group.expired = false ∧ entered = .suspended ∧
        db' = suspendJob (helpers.id, call.waitId) suspended db) := by
  simp only [enterWait, leaveWait] at h
  split at h
  · rename_i hleave
    split at h
    · cases h
    · rename_i db₁ checkpoint hok
      simp only [Except.ok.injEq, Prod.mk.injEq] at h
      obtain ⟨rfl, rfl⟩ := h
      exact .inl ⟨checkpoint, hleave, rfl, hok⟩
  · rename_i hleave
    simp only [Except.ok.injEq, Prod.mk.injEq] at h
    obtain ⟨rfl, rfl⟩ := h
    rw [not_or] at hleave
    exact .inr ⟨hleave.1, by simpa using hleave.2, rfl, rfl⟩

end

end BetterGraphileWorker
