-- SUMMARY: The outcome table of job-outcomes.ts: pruning, the two reads of queryJob, and which statements leave rows and outcomes alone.
import BetterGraphileWorker.Database.Effects

/-!
# Job outcomes

`queryJob` reads the live row of a job and then, from a later snapshot, what its first
read makes it look for: the children a suspended job waits on, or the outcome of a job
without a row. The column `updated_at` of a live row is not modelled; `queryJob` takes
what it read of it.
-/

namespace BetterGraphileWorker

/-! ## Retention -/

/-- Delete expired outcomes, but not those that other transactions hold. -/
def pruneJobOutcomes (now : Time) (retention : ℕ) (skipped : JobId → Bool) (db : Db) : Db :=
  { db with outcomes := db.outcomes.filter fun id outcome =>
      !(outcome.finishedAt < now - 1000 * (retention : ℤ) && !skipped id) }

/-! ## States -/

structure JobFields where
  id : JobId
  queue : String
  attempts : ℤ
  maxAttempts : ℤ
  createdAt : Time
  lastError : Option String
deriving DecidableEq

/-- The part of a `JobState` that its `state` selects. -/
inductive Standing where
  | pending (runAt : Time)
  | running (runAt lockedAt : Time)
  /-- Failed an attempt and waits for `runAt` to retry. -/
  | retrying (runAt : Time)
  | waiting (waitingOn : List JobId)
  | failed (finishedAt : Time)
  | completed (finishedAt : Time)
  | continued (finishedAt : Time) (continuedTo : Option JobId)
deriving DecidableEq

inductive JobState where
  | notFound (id : JobId)
  | found (fields : JobFields) (standing : Standing)
deriving DecidableEq

namespace Standing

/-- The job has run for the last time, unless somebody retries it. -/
def finished : Standing → Bool
  | .failed _ | .completed _ | .continued _ _ => true
  | _ => false

/-- A state that a suspended job shows until its children are read. -/
def maySuspend : Standing → Bool
  | .pending _ | .retrying _ => true
  | _ => false

end Standing

/-- pg decodes a timestamptz into a `Date`, which keeps milliseconds only. -/
def liveFields (id : JobId) (job : Job) : JobFields where
  id := id
  queue := job.identifier
  attempts := job.attempts
  maxAttempts := job.maxAttempts
  createdAt := truncateMs job.createdAt
  lastError := job.lastError

def liveStanding (updatedAt : Time) (job : Job) : Standing :=
  match job.lock with
  | some lock => .running (truncateMs job.runAt) (truncateMs lock.lockedAt)
  | none =>
    if job.maxAttempts ≤ job.attempts then .failed (truncateMs updatedAt)
    else if 0 < job.attempts then .retrying (truncateMs job.runAt)
    else .pending (truncateMs job.runAt)

def liveState (updatedAt : Time) (id : JobId) (job : Job) : JobState :=
  .found (liveFields id job) (liveStanding updatedAt job)

def outcomeFields (id : JobId) (outcome : Outcome) : JobFields where
  id := id
  queue := outcome.identifier
  attempts := outcome.attempts
  maxAttempts := outcome.maxAttempts
  createdAt := truncateMs outcome.createdAt
  lastError := outcome.lastError

def outcomeStanding (outcome : Outcome) : Standing :=
  match outcome.state with
  | .continued => .continued (truncateMs outcome.finishedAt) outcome.continuedTo
  | .completed => .completed (truncateMs outcome.finishedAt)
  | .failed => .failed (truncateMs outcome.finishedAt)

def outcomeState (id : JobId) (outcome : Outcome) : JobState :=
  .found (outcomeFields id outcome) (outcomeStanding outcome)

/-! ## Lookup -/

/-- The unfinished children of a job's open groups, in the order of their waits. -/
def Db.waitingOn (db : Db) (id : JobId) : List JobId :=
  let openGroup := fun key : GroupKey => (db.groups.get? key).filter (0 < ·.remaining)
  let keys := db.waits.keys fun key wait =>
    key.1.1 = id && wait.pending && (openGroup key.1).isSome
  let enteredAt := fun key : WaitKey => ((openGroup key.1).map (·.createdAt)).getD 0
  let before := fun key key' : WaitKey =>
    enteredAt key < enteredAt key' || enteredAt key = enteredAt key' && key.2 ≤ key'.2
  (keys.mergeSort before).filterMap fun key => (db.waits.get? key).map (·.child)

structure RangeError where
  message : String
deriving DecidableEq

/-- The two statements of `queryJob`; `now` and `updatedAt` belong to the first. -/
def queryJob (now updatedAt : Time) (id : JobId) (first second : Db) :
    Except RangeError JobState :=
  if id = 0 then .error ⟨"Invalid job id"⟩
  else match first.jobs.get? id with
    | some job =>
      let fields := liveFields id job
      let standing := liveStanding updatedAt job
      if standing.maySuspend ∧ now < job.runAt then
        match second.waitingOn id with
        | [] => .ok (.found fields standing)
        | children => .ok (.found fields (.waiting children))
      else .ok (.found fields standing)
    | none =>
      match second.outcomes.get? id with
      | some outcome => .ok (outcomeState id outcome)
      | none => .ok (.notFound id)

section
variable {now updatedAt : Time} {id : JobId} {first second : Db}

/-- A job that has a row is found, and its finished state is that of the row. -/
theorem queryJob_live {job : Job} (hid : id ≠ 0) (hrow : first.jobs.get? id = some job) :
    ∃ fields standing, queryJob now updatedAt id first second = .ok (.found fields standing) ∧
      (standing.finished = true → .found fields standing = liveState updatedAt id job) := by
  simp only [queryJob, if_neg hid, hrow]
  split
  · rename_i hsuspend
    split
    · exact ⟨_, _, rfl, fun _ => rfl⟩
    · refine ⟨_, _, rfl, fun hfinished => ?_⟩
      cases hfinished
  · exact ⟨_, _, rfl, fun _ => rfl⟩

theorem queryJob_fields (now updatedAt : Time) (second : Db) {job : Job} (hid : id ≠ 0)
    (hrow : first.jobs.get? id = some job) :
    ∃ standing, queryJob now updatedAt id first second = .ok (.found (liveFields id job) standing) := by
  simp only [queryJob, if_neg hid, hrow]
  split
  · split <;> exact ⟨_, rfl⟩
  · exact ⟨_, rfl⟩

theorem queryJob_gone (hid : id ≠ 0) (hrow : first.jobs.get? id = none) :
    queryJob now updatedAt id first second = .ok (match second.outcomes.get? id with
      | some outcome => outcomeState id outcome
      | none => .notFound id) := by
  simp only [queryJob, if_neg hid, hrow]
  split <;> simp_all

end

/-! ## Statements that keep rows and outcomes -/

/-- Every row is still there, created when it was, and the outcomes are the same. -/
structure Keeps (db db' : Db) : Prop where
  rows : ∀ id job, db.jobs.get? id = some job →
    ∃ job', db'.jobs.get? id = some job' ∧ job'.createdAt = job.createdAt
  outcomes : db'.outcomes = db.outcomes

namespace Keeps

variable {db db' db'' : Db} {now : Time} {id : JobId} {helpers : HelpersJob}

theorem refl (db : Db) : Keeps db db := ⟨fun _ job hrow => ⟨job, hrow, rfl⟩, rfl⟩

theorem trans (h : Keeps db db') (h' : Keeps db' db'') : Keeps db db'' where
  rows id job hrow := by
    obtain ⟨job', hrow', hcreated⟩ := h.rows id job hrow
    obtain ⟨job'', hrow'', hcreated'⟩ := h'.rows id job' hrow'
    exact ⟨job'', hrow'', hcreated'.trans hcreated⟩
  outcomes := h'.outcomes.trans h.outcomes

theorem of_same (hjobs : db'.jobs = db.jobs) (houtcomes : db'.outcomes = db.outcomes) :
    Keeps db db' where
  rows id job hrow := ⟨job, by rw [hjobs, hrow], rfl⟩
  outcomes := houtcomes

theorem of_map {f : JobId → Job → Job} (hjobs : ∀ id, db'.jobs.get? id = (db.jobs.get? id).map (f id))
    (houtcomes : db'.outcomes = db.outcomes) (hf : ∀ id job, (f id job).createdAt = job.createdAt) :
    Keeps db db' where
  rows id job hrow := ⟨f id job, by rw [hjobs, hrow]; rfl, hf id job⟩
  outcomes := houtcomes

theorem updateJob (id : JobId) {f : Job → Job} (hf : ∀ job, (f job).createdAt = job.createdAt) :
    Keeps db (db.updateJob id f) := by
  refine of_map (fun _ => Table.get?_modify _) rfl ?_
  intro id' job
  split
  · exact hf job
  · rfl

theorem addJob (now : Time) (spec : JobSpec) (hids : db.IdsBelow) :
    Keeps db (addJob now spec db).1 where
  rows id job hrow := by
    refine ⟨_, addJob_kept now spec hids hrow, ?_⟩
    cases planAdd db spec <;> simp only [AddPlan.row] <;> split <;> rfl
  outcomes := addJob_outcomes

theorem enqueueChildren (now : Time) (queue : String) (children : List (Option Json × Prepared))
    (hids : db.IdsBelow) : Keeps db (enqueueChildren now queue children db).1 := by
  induction children generalizing db with
  | nil => exact refl db
  | cons child children ih =>
    have hids' := (enqueued_enqueueChild now queue child.1 child.2 hids).idsBelow
    refine trans ?_ (ih hids')
    cases child.2 with
    | add options => exact addJob _ _ hids
    | duplicate id => exact refl db

theorem failJob {pool : PoolId} {error : String} : Keeps db (failJob now pool id error db) := by
  unfold BetterGraphileWorker.failJob
  split
  · exact refl db
  · rename_i job _
    have hfail : Keeps db (db.updateJob id (·.fail now error)) := updateJob id fun _ => rfl
    exact hfail.trans (of_same rfl rfl)

theorem releaseJobsLockedBy {pools : List PoolId} : Keeps db (releaseJobsLockedBy now pools db) := by
  refine of_map (fun _ => Table.get?_modify _) rfl ?_
  intro _ job
  unfold Job.release
  split
  · rfl
  · split <;> rfl

theorem reportWaits {report : Report} : Keeps db (reportWaits now report db) := by
  refine of_map (fun _ => Table.get?_modify _) rfl ?_
  intro id job
  split <;> rfl

theorem sweepWake : Keeps db (sweepWake now db) := by
  refine of_map (fun _ => Table.get?_modify _) rfl ?_
  intro id job
  split <;> rfl

theorem patchEnvelope {patch : Json → Json} (h : patchEnvelope helpers patch db = .ok db') :
    Keeps db db' := by
  obtain ⟨job, -, -, rfl⟩ := patchEnvelope_ok h
  exact updateJob _ fun _ => rfl

theorem suspendJob (key : GroupKey) (suspended : Bool) : Keeps db (suspendJob key suspended db) := by
  unfold BetterGraphileWorker.suspendJob
  split
  · exact refl db
  · exact updateJob _ fun _ => rfl

theorem createWait (now : Time) (key : GroupKey) (call : WaitCall) (prepared : List Prepared)
    (hids : db.IdsBelow) : Keeps db (createWait now key call prepared db).1 := by
  have hgroup : Keeps db (insertGroup now key call db) := of_same rfl rfl
  have hchildren := enqueueChildren now call.queue (call.inputs.zip prepared)
    (show (insertGroup now key call db).IdsBelow from hids)
  refine (hgroup.trans hchildren).trans (of_map (fun _ => Table.get?_modify _) rfl ?_)
  intro id job
  split <;> rfl

/-- A wait keeps all rows, whether it suspends or returns. -/
theorem enterWait {call : WaitCall} {suspended : Bool} {found : Option FoundGroup}
    {prepared : List Prepared} {entered : Entered} (hids : db.IdsBelow)
    (h : enterWait now helpers call suspended found prepared db = .ok (db', entered)) :
    Keeps db db' := by
  cases found with
  | none =>
    rw [enterWait_missing] at h
    simp only [Except.ok.injEq, Prod.mk.injEq] at h
    obtain ⟨rfl, -⟩ := h
    exact (createWait now _ call prepared hids).trans (suspendJob _ _)
  | some group =>
    obtain ⟨checkpoint, -, -, hfin⟩ | ⟨-, -, -, rfl⟩ := enterWait_found h
    · obtain ⟨-, db₁, hwrite, rfl⟩ := finishWait_ok hfin
      exact (patchEnvelope hwrite).trans (of_same rfl rfl)
    · exact suspendJob _ _

end Keeps

end BetterGraphileWorker
