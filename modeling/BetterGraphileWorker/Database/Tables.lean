-- SUMMARY: The database state: Graphile's private jobs and lanes, the wait tables and the outcome table.
import Mathlib.Algebra.Order.Group.Int
import Mathlib.Data.List.Dedup
import BetterGraphileWorker.Library.Table
import BetterGraphileWorker.Data.Waits

/-!
# Tables

The columns of `_private_jobs`, `_private_job_queues`, `bgw_wait_groups`,
`bgw_waits` and `bgw_job_outcomes` that some modelled statement reads or writes.
Ids come from a sequence, times are microseconds.
-/

namespace BetterGraphileWorker

abbrev PoolId := String
/-- A timestamptz, in microseconds. -/
abbrev Time := ℤ
/-- The primary key of a wait group: parent job and wait id. -/
abbrev GroupKey := JobId × String
/-- The primary key of a wait row: its group and `idx`. -/
abbrev WaitKey := GroupKey × ℕ

/-- `locked_by` and `locked_at`, which Graphile sets and clears together. -/
structure Lock where
  lockedBy : PoolId
  lockedAt : Time

/-- An object in the column `flags`, by its keys. -/
structure FlagSet where
  keys : List String
  nodup : keys.Nodup
  nonempty : keys ≠ []
deriving DecidableEq

structure Job where
  identifier : String
  payload : Json
  queueName : Option String
  key : Option String
  priority : ℤ
  flags : Option FlagSet
  attempts : ℤ
  maxAttempts : ℤ
  runAt : Time
  lock : Option Lock
  createdAt : Time
  lastError : Option String
  /-- How often a keyed re-add replaced the payload. No statement reads it. -/
  generation : ℕ

structure Group where
  remaining : ℤ
  deadline : Option Time
  createdAt : Time

structure Wait where
  child : JobId
  result : Option Json
  finishedAt : Option Time

inductive OutcomeState where
  | completed
  | failed
  | continued
deriving DecidableEq

structure Outcome where
  identifier : String
  state : OutcomeState
  continuedTo : Option JobId
  attempts : ℤ
  maxAttempts : ℤ
  lastError : Option String
  createdAt : Time
  finishedAt : Time

structure Db where
  /-- The next value of the job id sequence. -/
  nextId : JobId
  jobs : Table JobId Job
  /-- `locked_by` of each lane. -/
  lanes : String → Option PoolId
  groups : Table GroupKey Group
  waits : Table WaitKey Wait
  outcomes : Table JobId Outcome

/-- The database after `migrate()`. -/
def Db.initial : Db where
  nextId := 1
  jobs := ∅
  lanes := fun _ => none
  groups := ∅
  waits := ∅
  outcomes := ∅

namespace Job

/-- The row can start another run. -/
def live (job : Job) : Bool := job.attempts < job.maxAttempts

def setPayload (job : Job) (payload : Json) : Job := { job with payload }

def setRunAt (job : Job) (runAt : Time) : Job := { job with runAt }

end Job

namespace Wait

def pending (wait : Wait) : Bool := wait.result.isNone

def setResult (wait : Wait) (result : Json) (now : Time) : Wait :=
  { wait with result := some result, finishedAt := some now }

end Wait

namespace Db

/-- `UPDATE _private_jobs ... WHERE id = ...`. -/
def updateJob (db : Db) (id : JobId) (f : Job → Job) : Db :=
  { db with jobs := db.jobs.update id f }

/-- Release a lane that the pool locked. -/
def unlockLane (db : Db) (queueName : Option String) (pool : PoolId) : Db :=
  { db with lanes := fun q =>
      if some q = queueName ∧ db.lanes q = some pool then none else db.lanes q }

section
variable (db : Db) (id : JobId) (f : Job → Job) (queueName : Option String) (pool : PoolId)

@[simp] theorem updateJob_jobs : (db.updateJob id f).jobs = db.jobs.update id f := rfl
@[simp] theorem updateJob_groups : (db.updateJob id f).groups = db.groups := rfl
@[simp] theorem updateJob_waits : (db.updateJob id f).waits = db.waits := rfl
@[simp] theorem updateJob_outcomes : (db.updateJob id f).outcomes = db.outcomes := rfl
@[simp] theorem updateJob_lanes : (db.updateJob id f).lanes = db.lanes := rfl
@[simp] theorem updateJob_nextId : (db.updateJob id f).nextId = db.nextId := rfl
@[simp] theorem unlockLane_jobs : (db.unlockLane queueName pool).jobs = db.jobs := rfl
@[simp] theorem unlockLane_groups : (db.unlockLane queueName pool).groups = db.groups := rfl
@[simp] theorem unlockLane_waits : (db.unlockLane queueName pool).waits = db.waits := rfl
@[simp] theorem unlockLane_outcomes : (db.unlockLane queueName pool).outcomes = db.outcomes := rfl
@[simp] theorem unlockLane_nextId : (db.unlockLane queueName pool).nextId = db.nextId := rfl

end

/-- The number of unreported children of a group. -/
def unreported (db : Db) (key : GroupKey) : ℕ :=
  db.waits.count fun k wait => k.1 = key && wait.pending

end Db

/-! ## Backoff -/

/-- `exp(-1)`, `exp(-2)`, ... seconds; from `exp(-15)` on they round to zero microseconds. -/
def expSecondsNeg : List Time :=
  [367879, 135335, 49787, 18316, 6738, 2479, 912, 335, 123, 45, 17, 6, 2, 1]

/-- `exp(n)` seconds as PostgreSQL rounds it to microseconds, for `n ≤ 10`. -/
def expSeconds : ℤ → Time
  | .ofNat 0 => 1000000
  | .ofNat 1 => 2718282
  | .ofNat 2 => 7389056
  | .ofNat 3 => 20085537
  | .ofNat 4 => 54598150
  | .ofNat 5 => 148413159
  | .ofNat 6 => 403428793
  | .ofNat 7 => 1096633158
  | .ofNat 8 => 2980957987
  | .ofNat 9 => 8103083928
  | .ofNat _ => 22026465795
  | .negSucc n => expSecondsNeg.getD n 0

/-- The delay Graphile's failure update adds to run_at, for a number of attempts. -/
def graphileBackoff (attempts : ℤ) : Time := expSeconds (min attempts 10)

theorem expSeconds_nonneg (n : ℤ) : 0 ≤ expSeconds n := by
  unfold expSeconds
  split <;> try decide
  rename_i n
  have hmem : ∀ t ∈ expSecondsNeg, 0 ≤ t := by decide
  rw [List.getD_eq_getElem?_getD]
  cases h : expSecondsNeg[n]? with
  | none => exact le_refl _
  | some t => exact hmem t (List.mem_of_getElem? h)

theorem graphileBackoff_nonneg (attempts : ℤ) : 0 ≤ graphileBackoff attempts :=
  expSeconds_nonneg _

end BetterGraphileWorker
