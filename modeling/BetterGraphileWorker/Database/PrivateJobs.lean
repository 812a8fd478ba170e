-- SUMMARY: The statements of private-jobs.ts as functions of the database: settling, envelope patches, continuing, releasing, waiting and sweeping.
import BetterGraphileWorker.Database.Graphile

/-!
# Private jobs

Each definition is the statement, or the run of statements in one transaction, that
`private-jobs.ts` issues under its name. `now` is the start of the transaction that
runs it. A transaction that locks a row first and writes later is split where the
lock is taken: what it reads under the lock is an argument of what follows.
-/

namespace BetterGraphileWorker

/-! ## The attempt's lock -/

/-- The fields of `helpers.job` that the library uses, as pg decodes the claimed row. -/
structure HelpersJob where
  id : JobId
  lockedBy : PoolId
  /-- A `Date`, which keeps milliseconds only. -/
  lockedAt : Time
  attempts : ℤ
  maxAttempts : ℤ
  payload : Json

/-- `date_trunc('milliseconds', t)`. -/
def truncateMs (t : Time) : Time := t / 1000 * 1000

def HelpersJob.ofJob (id : JobId) (job : Job) (lock : Lock) : HelpersJob where
  id := id
  lockedBy := lock.lockedBy
  lockedAt := truncateMs lock.lockedAt
  attempts := job.attempts
  maxAttempts := job.maxAttempts
  payload := job.payload

structure StepPersistenceError where
  jobId : JobId

/-- The lock columns that `owned()` compares. -/
def HelpersJob.owns (helpers : HelpersJob) (job : Job) : Bool :=
  job.lock.any fun lock =>
    lock.lockedBy = helpers.lockedBy && truncateMs lock.lockedAt = helpers.lockedAt

/-- The row that `WHERE owned()` selects. -/
def Db.owned (db : Db) (helpers : HelpersJob) : Option Job :=
  (db.jobs.get? helpers.id).filter helpers.owns

/-! ## Retries -/

/-- Shift run_at back by the backoff that the failure update adds; returns the expected retry. -/
def scheduleRetry (now : Time) (helpers : HelpersJob) (runAt : Time) (db : Db) :
    Except StepPersistenceError (Db × Time) :=
  match db.owned helpers with
  | none => .error ⟨helpers.id⟩
  | some job =>
    let backoff := graphileBackoff job.attempts
    .ok (db.updateJob helpers.id (·.setRunAt (runAt - backoff)), max now (runAt - backoff) + backoff)

/-! ## Reports -/

/-- The report that a statement writes into a wait row, if it resolves that row. -/
abbrev Report := WaitKey → Wait → Option ChildReport

/-- Reports are written into unresolved rows only: `waits.result IS NULL`. -/
def Report.resolution (report : Report) (key : WaitKey) (wait : Wait) : Option ChildReport :=
  if wait.pending then report key wait else none

/-- `reported`: write the results. -/
def resolveWaits (now : Time) (report : Report) (db : Db) : Db :=
  { db with waits := db.waits.modify fun key wait =>
      match report.resolution key wait with
      | none => wait
      | some result => wait.setResult result.toJson now }

/-- How many rows of a group `reported` returns. -/
def Db.reported (db : Db) (report : Report) (group : GroupKey) : ℕ :=
  db.waits.count fun key wait => key.1 = group && (report.resolution key wait).isSome

def Group.countDown (group : Group) (n : ℕ) : Group := { group with remaining := group.remaining - n }

/-- Some group of the parent is counted down to zero. -/
def Db.wakesParent (db : Db) (n : GroupKey → ℕ) (parent : JobId) : Bool :=
  db.groups.any fun key group =>
    key.1 = parent && 0 < n key && (group.countDown (n key)).remaining = 0

/-- `counted` and `woken`: `n` is the number of waits just reported in each group. -/
def wakeParents (now : Time) (n : GroupKey → ℕ) (db : Db) : Db :=
  { db with
    groups := db.groups.modify fun key group => group.countDown (n key)
    jobs := db.jobs.modify fun id job =>
      if db.wakesParent n id then job.setRunAt (min job.runAt now) else job }

/-- The `reported`, `counted` and `woken` parts of a reporting statement. -/
def reportWaits (now : Time) (report : Report) (db : Db) : Db :=
  wakeParents now (db.reported report) (resolveWaits now report db)

/-! ## Settling -/

inductive SettledOutcome where
  | completed
  | failed (error : String)
  | continued (continuedTo : JobId)

def SettledOutcome.state : SettledOutcome → OutcomeState
  | .completed => .completed
  | .failed _ => .failed
  | .continued _ => .continued

/-- What happens to the settled row. -/
inductive RowMode where
  | delete
  | exhaust
  | keep
deriving DecidableEq

structure Settle where
  outcome : Option SettledOutcome
  report : Option ChildReport
  row : RowMode

/-- `recorded`: upsert the job's outcome. -/
def recordOutcome (now : Time) (id : JobId) (job : Job) (outcome : SettledOutcome) (db : Db) : Db :=
  let old := db.outcomes.get? id
  { db with outcomes := db.outcomes.insert id {
      identifier := (old.map (·.identifier)).getD job.identifier
      state := outcome.state
      continuedTo := match outcome with | .continued next => some next | _ => none
      attempts := job.attempts
      maxAttempts := job.maxAttempts
      lastError := match outcome with | .failed error => some error | _ => none
      createdAt := (old.map (·.createdAt)).getD job.createdAt
      finishedAt := now } }

/-- The waits on a child that the statement's snapshot sees all get its report. -/
def childReport (child : JobId) (report : ChildReport) (visible : WaitKey → Bool) : Report :=
  fun key wait => if visible key && wait.child = child then some report else none

def Job.exhaust (job : Job) : Job := { job with maxAttempts := job.attempts }

def settleRow (row : RowMode) (helpers : HelpersJob) (job : Job) (db : Db) : Db :=
  match row with
  | .keep => db
  | .exhaust => db.updateJob helpers.id Job.exhaust
  | .delete => (db.deleteJob helpers.id).unlockLane job.queueName helpers.lockedBy

def settleJob (now : Time) (helpers : HelpersJob) (settle : Settle) (visible : WaitKey → Bool)
    (db : Db) : Db × Bool :=
  match db.owned helpers with
  | none => (db, false)
  | some job =>
    let db := match settle.outcome with
      | none => db
      | some outcome => recordOutcome now helpers.id job outcome db
    let db := match settle.report with
      | none => db
      | some report => reportWaits now (childReport helpers.id report visible) db
    (settleRow settle.row helpers job db, true)

/-! ## Envelope patches -/

/-- Patch the locked job's envelope while this attempt owns it. -/
def patchEnvelope (helpers : HelpersJob) (patch : Json → Json) (db : Db) :
    Except StepPersistenceError Db :=
  match db.owned helpers with
  | none => .error ⟨helpers.id⟩
  | some job =>
    if Payload.patchable job.payload then
      .ok (db.updateJob helpers.id (·.setPayload (patch job.payload)))
    else .error ⟨helpers.id⟩

def writeCheckpoint (helpers : HelpersJob) (id : String) (checkpoint : Json) :
    Db → Except StepPersistenceError Db :=
  patchEnvelope helpers (Payload.setStep · id checkpoint)

def writeProgress (helpers : HelpersJob) (value : Json) : Db → Except StepPersistenceError Db :=
  patchEnvelope helpers (Payload.setProgress · value)

/-! ## Continuing -/

/-- The spec of a continuation, from the row that the transaction locked. -/
def continueSpec (job : Job) (runAt : Option Time) (traceparent : Option String)
    (progress : Option Json) : JobSpec where
  identifier := job.identifier
  payload := Payload.continueEnvelope job.payload progress traceparent
  queueName := job.queueName
  runAt := runAt
  maxAttempts := some job.maxAttempts
  jobKey := job.key
  priority := some job.priority
  flags := job.flags.map FlagSet.keys
  jobKeyMode := .replace

/-- Point the unresolved waits on a job at another one. -/
def retargetWaits (child child' : JobId) (db : Db) : Db :=
  { db with waits := db.waits.modify fun _ wait =>
      if wait.child = child ∧ wait.pending then { wait with child := child' } else wait }

/-- `UPDATE ... SET max_attempts = attempts WHERE owned()`. -/
def exhaustOwned (helpers : HelpersJob) (db : Db) : Db :=
  match db.owned helpers with
  | none => db
  | some _ => db.updateJob helpers.id Job.exhaust

/-- The statements of `continueJob` after it read `job` under the row's lock. -/
def continueJob (now : Time) (helpers : HelpersJob) (job : Job) (runAt : Option Time)
    (traceparent : Option String) (progress : Option Json) (outcome : Bool) (db : Db) :
    Except StepPersistenceError (Db × JobId) :=
  let (db, id) := addJob now (continueSpec job runAt traceparent progress) db
  let db := exhaustOwned helpers db
  let db := if Payload.waited job.payload then retargetWaits helpers.id id db else db
  if outcome then
    match settleJob now helpers ⟨some (.continued id), none, .delete⟩ (fun _ => true) db with
    | (db, true) => .ok (db, id)
    | (_, false) => .error ⟨helpers.id⟩
  else .ok (db, id)

/-! ## Crash recovery -/

def releaseError (pool : PoolId) : String :=
  "Worker " ++ pool ++
    " stopped sending heartbeats (crashed or blocked); released by crash recovery"

def Job.release (now : Time) (pools : List PoolId) (job : Job) : Job :=
  match job.lock with
  | none => job
  | some lock =>
    if lock.lockedBy ∈ pools then job.fail now (releaseError lock.lockedBy) else job

/-- Release jobs and lanes locked by dead worker pools. -/
def releaseJobsLockedBy (now : Time) (pools : List PoolId) (db : Db) : Db :=
  { db with
    jobs := db.jobs.modify fun _ job => job.release now pools
    lanes := fun q => (db.lanes q).filter (· ∉ pools) }

/-! ## Waiting -/

/--
One wait: its id, the queue of its children, their inputs and the timeout in
milliseconds. A wait for no children returns before it gets here.
-/
structure WaitCall where
  waitId : String
  queue : String
  inputs : List (Option Json)
  timeout : Option ℕ
  nonempty : inputs ≠ []

theorem WaitCall.one_input : [some Json.null] ≠ [] :=
  List.cons_ne_nil _ _

/-- The resolved enqueue options of one child. -/
structure ChildOptions where
  traceparent : Option String
  queueName : Option String
  runAt : Option Time
  maxAttempts : ℤ
  jobKey : Option String
  priority : Option ℤ
  flags : Option (List String)
  jobKeyMode : JobKeyMode

/-- How the prepared statement enqueues one child. -/
inductive Prepared where
  | add (options : ChildOptions)
  /-- Its idempotency key returns a job that was added before. -/
  | duplicate (id : JobId)

def childSpec (queue : String) (input : Option Json) (options : ChildOptions) : JobSpec where
  identifier := queue
  payload := Payload.injectTraceContext input options.traceparent
  queueName := options.queueName
  runAt := options.runAt
  maxAttempts := some options.maxAttempts
  jobKey := options.jobKey
  priority := options.priority
  flags := options.flags
  jobKeyMode := options.jobKeyMode

def enqueueChild (now : Time) (queue : String) (input : Option Json) (db : Db) :
    Prepared → Db × JobId
  | .add options => addJob now (childSpec queue input options) db
  | .duplicate id => (db, id)

/-- Run the prepared statement: the ids come back in input order. -/
def enqueueChildren (now : Time) (queue : String) : List (Option Json × Prepared) → Db →
    Db × List JobId
  | [], db => (db, [])
  | (input, prepared) :: children, db =>
    let (db, id) := enqueueChild now queue input db prepared
    let (db, ids) := enqueueChildren now queue children db
    (db, id :: ids)

/-- What a wait reads of its group under the group row's lock. -/
structure FoundGroup where
  remaining : ℤ
  expired : Bool

def findGroup (now : Time) (key : GroupKey) (db : Db) : Option FoundGroup :=
  (db.groups.get? key).map fun group => ⟨group.remaining, group.deadline.any (· ≤ now)⟩

/--
The row of a new group. Its interval is exact here; the product with a `float8` is off by
up to 512 µs for timeouts of more than 285 years.
-/
def WaitCall.newGroup (call : WaitCall) (now : Time) : Group where
  remaining := call.inputs.length
  deadline := call.timeout.map fun ms : ℕ => now + 1000 * (ms : ℤ)
  createdAt := now

def insertGroup (now : Time) (key : GroupKey) (call : WaitCall) (db : Db) : Db :=
  { db with groups := db.groups.insert key (call.newGroup now) }

/-- Insert one wait row for each child, in order. -/
def insertWaits (key : GroupKey) (ids : List JobId) (db : Db) : Db :=
  let insertWait := fun (waits : Table WaitKey Wait) (child : JobId × ℕ) =>
    waits.insert (key, child.2) ⟨child.1, none, none⟩
  { db with waits := ids.zipIdx.foldl insertWait db.waits }

/-- The workers of these children report their final state. -/
def markWaited (ids : List JobId) (db : Db) : Db :=
  { db with jobs := db.jobs.modify fun id job =>
      if id ∈ ids ∧ job.payload.isObject then job.setPayload (Payload.markWaited job.payload)
      else job }

/-- The first call of a wait: enqueue its children with their group and wait rows. -/
def createWait (now : Time) (key : GroupKey) (call : WaitCall) (prepared : List Prepared)
    (db : Db) : Db × List JobId :=
  let db := insertGroup now key call db
  let (db, ids) := enqueueChildren now call.queue (call.inputs.zip prepared) db
  (markWaited ids (insertWaits key ids db), ids)

/-- Where a suspended job's run_at points when its wait has no timeout: the year 9999. -/
def noDeadline : Time := 253370764800000000

/-- Give `given` attempts back and aim at the deadline. -/
def Job.suspend (job : Job) (deadline : Option Time) (given : ℤ) : Job :=
  let aim := deadline.getD noDeadline - graphileBackoff (job.attempts - given)
  { job with
    attempts := job.attempts - given
    runAt := if given = 1 then aim else min job.runAt aim }

/-- Suspend the locked job on its group; `suspended` by an earlier wait of this run or not. -/
def suspendJob (key : GroupKey) (suspended : Bool) (db : Db) : Db :=
  match db.groups.get? key with
  | none => db
  | some group => db.updateJob key.1 (·.suspend group.deadline (if suspended then 0 else 1))

/-- The wait rows of a group, `ORDER BY idx`. -/
def Db.waitsOf (db : Db) (key : GroupKey) : List Wait :=
  let bound := (db.waits.keys fun k _ => k.1 = key).foldr (fun k n => max (k.2 + 1) n) 0
  (List.range bound).filterMap fun idx => db.waits.get? (key, idx)

def waitCheckpoint (complete : Bool) (waits : List Wait) : WaitCheckpoint :=
  if complete then .results (waits.map fun wait => (wait.child, wait.result.getD .null))
  else .timedOut ((waits.filter (·.pending)).map (·.child))

/-- Delete a group; its wait rows go with it. -/
def deleteGroup (key : GroupKey) (db : Db) : Db :=
  { db with
    groups := db.groups.erase key
    waits := db.waits.filter fun k _ => k.1 ≠ key }

/-- Checkpoint a wait's results, or its unfinished children after a timeout, and delete its group. -/
def finishWait (helpers : HelpersJob) (waitId : String) (complete : Bool) (db : Db) :
    Except StepPersistenceError (Db × WaitCheckpoint) :=
  let checkpoint := waitCheckpoint complete (db.waitsOf (helpers.id, waitId))
  match writeCheckpoint helpers waitId (StepCacheEntry.output checkpoint.toJson).toJson db with
  | .error e => .error e
  | .ok db => .ok (deleteGroup (helpers.id, waitId) db, checkpoint)

inductive Entered where
  | finished (checkpoint : WaitCheckpoint)
  | suspended

/-- The end of a wait's transaction, under the group row's lock. -/
def leaveWait (helpers : HelpersJob) (call : WaitCall) (suspended : Bool) (group : FoundGroup)
    (db : Db) : Except StepPersistenceError (Db × Entered) :=
  if group.remaining = 0 ∨ group.expired then
    match finishWait helpers call.waitId (group.remaining = 0) db with
    | .error e => .error e
    | .ok (db, checkpoint) => .ok (db, .finished checkpoint)
  else .ok (suspendJob (helpers.id, call.waitId) suspended db, .suspended)

/-- The statements of `enterWait` after it locked the job row and looked its group up. -/
def enterWait (now : Time) (helpers : HelpersJob) (call : WaitCall) (suspended : Bool)
    (found : Option FoundGroup) (prepared : List Prepared) (db : Db) :
    Except StepPersistenceError (Db × Entered) :=
  match found with
  | some group => leaveWait helpers call suspended group db
  | none =>
    let (db, _) := createWait now (helpers.id, call.waitId) call prepared db
    leaveWait helpers call suspended ⟨call.inputs.length, false⟩ db

/-! ## The sweep -/

def lostError (job : Option Job) : String :=
  match job with
  | none =>
    "The child job finished without reporting a result (deleted, or run by a worker without wait support)"
  | some job => job.lastError.getD "The child job failed permanently"

/-- The child of a wait is gone, or unlocked and out of attempts. -/
def Job.lost : Option Job → Bool
  | none => true
  | some job => job.lock.isNone && !job.live

/--
Fail the waits whose child is lost; rows locked by other transactions are skipped. The text is
that of the child's row as the statement's snapshot has it, which may be gone by now.
-/
def lostReport (db : Db) (seen : JobId → Option Job) (skipped : WaitKey → Bool) : Report :=
  fun key wait =>
    if !skipped key && Job.lost (db.jobs.get? wait.child) then
      some (.failed "ChildJobLostError" (lostError (seen wait.child)))
    else none

def sweepLost (now : Time) (seen : JobId → Option Job) (skipped : WaitKey → Bool) (db : Db) : Db :=
  reportWaits now (lostReport db seen skipped) db

/-- Wake parents whose wakeup was swallowed. -/
def sweepWake (now : Time) (db : Db) : Db :=
  { db with jobs := db.jobs.modify fun id job =>
      if (db.groups.any fun key group => key.1 = id && group.remaining = 0) && job.available &&
          now < job.runAt
      then job.setRunAt now else job }

/-- Drop the groups of parents that no longer exist. -/
def sweepOrphans (db : Db) : Db :=
  { db with
    groups := db.groups.filter fun key _ => (db.jobs.get? key.1).isSome
    waits := db.waits.filter fun key _ => (db.jobs.get? key.1.1).isSome }

end BetterGraphileWorker
