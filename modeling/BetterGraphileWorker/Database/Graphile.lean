-- SUMMARY: Graphile Worker 0.17's side of the database: add_job, claiming, and its failure and completion updates.
import BetterGraphileWorker.Database.Tables

/-!
# Graphile Worker

The functions of Graphile Worker 0.17 that the library calls or runs beside. They
are not part of the repository: `add_job` replaces a pending job with the same key
in place, takes the key from a locked or exhausted one and enqueues next to it;
the failure update matches the lock owner and the completion only the id, and the
admin functions skip the rows that somebody works on.
-/

namespace BetterGraphileWorker

inductive JobKeyMode where
  | replace
  | preserveRunAt
  | unsafeDedupe
deriving DecidableEq

/-- The arguments of `add_job`. -/
structure JobSpec where
  identifier : String
  payload : Json
  queueName : Option String
  runAt : Option Time
  maxAttempts : Option ℤ
  jobKey : Option String
  priority : Option ℤ
  flags : Option (List String)
  jobKeyMode : JobKeyMode

/-! ## Enqueueing -/

/-- The column `is_available`: nobody runs the job and it has attempts left. -/
def Job.available (job : Job) : Bool := job.lock.isNone && job.live

/-- What `add_job` does with its spec, decided by the row that holds the key. -/
inductive AddPlan where
  | insert
  | replace (id : JobId)
  | supersede (id : JobId)
  | dedupe (id : JobId)
deriving DecidableEq

def planAdd (db : Db) (spec : JobSpec) : AddPlan :=
  match spec.jobKey with
  | none => .insert
  | some key =>
    match db.jobs.find? fun _ job => job.key = some key with
    | none => .insert
    | some (id, job) =>
      if spec.jobKeyMode = .unsafeDedupe then .dedupe id
      else if job.available then .replace id else .supersede id

/-- The column `flags` of a new row; an empty list makes it null. -/
def flagColumn (flags : Option (List String)) : Option FlagSet :=
  flags.bind fun flags =>
    if h : flags = [] then none
    else some ⟨flags.dedup, flags.nodup_dedup, mt flags.dedup_eq_nil.mp h⟩

/-- `array_agg` of a row's flags gives them to another row. -/
theorem flagColumn_keys (flags : Option FlagSet) : flagColumn (flags.map FlagSet.keys) = flags := by
  cases flags with
  | none => rfl
  | some flags => simp [flagColumn, flags.nonempty, flags.nodup.dedup]

/-- The row of a new job. -/
def newJob (now : Time) (spec : JobSpec) : Job where
  identifier := spec.identifier
  payload := spec.payload
  queueName := spec.queueName
  key := spec.jobKey
  priority := spec.priority.getD 0
  flags := flagColumn spec.flags
  attempts := 0
  maxAttempts := spec.maxAttempts.getD 25
  runAt := spec.runAt.getD now
  lock := none
  createdAt := now
  lastError := none
  generation := 0

/-- Graphile concatenates array payloads and replaces all others. -/
def mergePayload : Json → Json → Json
  | .arr old, .arr new => .arr (old ++ new)
  | _, new => new

/-- The row of a pending job after its key was added again. -/
def Job.replaceWith (job : Job) (now : Time) (spec : JobSpec) : Job :=
  { job with
    identifier := spec.identifier
    payload := mergePayload job.payload spec.payload
    queueName := spec.queueName
    priority := spec.priority.getD 0
    flags := flagColumn spec.flags
    attempts := 0
    maxAttempts := spec.maxAttempts.getD 25
    runAt := if spec.jobKeyMode = .preserveRunAt ∧ job.attempts = 0 then job.runAt
      else spec.runAt.getD now
    lastError := none
    generation := job.generation + 1 }

/-- The row of a locked or exhausted job after its key was added again. -/
def Job.superseded (job : Job) : Job := { job with key := none, attempts := job.maxAttempts }

/-- Insert a row under the next id of the sequence. -/
def Db.insertJob (db : Db) (job : Job) : Db :=
  { db with nextId := db.nextId + 1, jobs := db.jobs.insert db.nextId job }

/-- The rows that already exist, as the plan changes them. -/
def AddPlan.modify (now : Time) (spec : JobSpec) (db : Db) : AddPlan → Db
  | .replace id => db.updateJob id (·.replaceWith now spec)
  | .supersede id => db.updateJob id Job.superseded
  | .insert | .dedupe _ => db

/-- The id that `add_job` returns; `none` when it inserts a row. -/
def AddPlan.existing : AddPlan → Option JobId
  | .replace id | .dedupe id => some id
  | .insert | .supersede _ => none

/-- `add_job`: the database after it and the id of the job it returns. -/
def addJob (now : Time) (spec : JobSpec) (db : Db) : Db × JobId :=
  let plan := planAdd db spec
  let db := plan.modify now spec db
  match plan.existing with
  | some id => (db, id)
  | none => (db.insertJob (newJob now spec), db.nextId)

/-! ## Running -/

/-- `get_job` takes an available job that is due and whose lane is free. -/
def claimable (now : Time) (db : Db) (job : Job) : Bool :=
  job.available && job.runAt ≤ now && job.queueName.all fun q => (db.lanes q).isNone

def Job.lockFor (job : Job) (lock : Lock) : Job :=
  { job with attempts := job.attempts + 1, lock := some lock }

/-- `get_job` of a claimable row: lock it and its lane and count the attempt. -/
def getJob (now : Time) (pool : PoolId) (id : JobId) (job : Job) (db : Db) : Db :=
  let db := db.updateJob id (·.lockFor ⟨pool, now⟩)
  { db with lanes := fun q => if some q = job.queueName then some pool else db.lanes q }

/-- Unlock a row with the failure backoff. -/
def Job.fail (job : Job) (now : Time) (error : String) : Job :=
  { job with
    lastError := some error
    runAt := max now job.runAt + graphileBackoff job.attempts
    lock := none }

def Job.lockedByPool (job : Job) (pool : PoolId) : Bool :=
  job.lock.any fun lock => lock.lockedBy = pool

/-- `fail_job`: matches the id and the pool that holds the lock. -/
def failJob (now : Time) (pool : PoolId) (id : JobId) (error : String) (db : Db) : Db :=
  match (db.jobs.get? id).filter (·.lockedByPool pool) with
  | none => db
  | some job => (db.updateJob id (·.fail now error)).unlockLane job.queueName pool

/-- `DELETE FROM _private_jobs WHERE id = ...`. -/
def Db.deleteJob (db : Db) (id : JobId) : Db := { db with jobs := db.jobs.erase id }

/-- `complete_jobs`: matches the id only. -/
def completeJob (pool : PoolId) (id : JobId) (db : Db) : Db :=
  match db.jobs.get? id with
  | none => db
  | some job => (db.deleteJob id).unlockLane job.queueName pool

/-! ## Administration -/

/-- Four hours. -/
def staleLock : Time := 14400000000

/-- The admin functions leave a row alone while somebody works on it. -/
def Job.administrable (job : Job) (now : Time) : Bool :=
  job.lock.all fun lock => lock.lockedAt < now - staleLock

/-- Write the administrable rows among `ids`. -/
def administer (now : Time) (ids : List JobId) (f : Job → Job) (db : Db) : Db :=
  { db with jobs := db.jobs.modify fun id job =>
      if id ∈ ids ∧ job.administrable now then f job else job }

/-- The columns that `reschedule_jobs` is given. -/
structure Reschedule where
  runAt : Option Time
  priority : Option ℤ
  attempts : Option ℤ
  maxAttempts : Option ℤ

def Job.reschedule (job : Job) (columns : Reschedule) : Job :=
  { job with
    runAt := columns.runAt.getD job.runAt
    priority := columns.priority.getD job.priority
    attempts := columns.attempts.getD job.attempts
    maxAttempts := columns.maxAttempts.getD job.maxAttempts }

def rescheduleJobs (now : Time) (ids : List JobId) (columns : Reschedule) : Db → Db :=
  administer now ids (·.reschedule columns)

def Job.permanentlyFail (job : Job) (reason : Option String) : Job :=
  { job with
    lastError := some (reason.getD "Manually marked as failed")
    attempts := job.maxAttempts }

def permanentlyFailJobs (now : Time) (ids : List JobId) (reason : Option String) : Db → Db :=
  administer now ids (·.permanentlyFail reason)

end BetterGraphileWorker
