-- SUMMARY: The running system: worker attempts, open transactions, and every statement that can come next.
import BetterGraphileWorker.Library.Runs
import BetterGraphileWorker.Database.PrivateJobs

/-!
# The system

Any number of worker pools run attempts against one database. A statement outside
a transaction is one step. `enterWait` and `continueJob` are transactions of several
steps: they lock the job row, then (a wait) the group row, and commit or roll back
later; their writes become visible at the commit. A statement that would write a row
locked by an open transaction waits, so its step is not enabled. A crashed process
takes no further steps, and its open transaction rolls back.
-/

namespace BetterGraphileWorker

/-! ## States -/

inductive Ending where
  | continued (jobId : JobId)
  | waiting (waitId : String)

def Ending.isContinued : Ending → Bool
  | .continued _ => true
  | .waiting _ => false

/-- One run of a job: what its process holds in memory. -/
structure Attempt where
  job : HelpersJob
  /-- The lock that the claim wrote; the process only sees it truncated, in `job`. -/
  lock : Lock
  jobOutcomes : Bool
  /-- The step store. -/
  cache : String → Option StepCacheEntry
  /-- `progress.get()`. -/
  progress : Option Json
  continueCalled : Bool
  ended : Option Ending

/-- How far a transaction of the endings queue has come. -/
inductive TxStage where
  /-- `enterWait` holds the job row. -/
  | waitLocked (call : WaitCall) (suspended : Bool)
  /-- `enterWait` looked its group up and holds that row as well, if there is one. -/
  | waitLooked (call : WaitCall) (suspended : Bool) (found : Option FoundGroup)
  /-- `continueJob` read the job row and holds it. -/
  | continuing (job : Job) (runAt : Option Time) (traceparent : Option String)
      (progress : Option Json)

structure Tx where
  attempt : ℕ
  startedAt : Time
  stage : TxStage

/-- The wait whose group row the transaction holds. -/
def Tx.heldWait (tx : Tx) : Option String :=
  match tx.stage with
  | .waitLooked call _ (some _) => some call.waitId
  | _ => none

structure State where
  now : Time
  db : Db
  attempts : Table ℕ Attempt
  nextAttempt : ℕ
  /-- The open transactions, by the job row that they hold. -/
  txs : Table JobId Tx

def State.initial : State where
  now := 0
  db := Db.initial
  attempts := ∅
  nextAttempt := 0
  txs := ∅

inductive Event where
  | tick (d : ℕ)
  | addJob (now : Time) (spec : JobSpec)
  | claim (now : Time) (pool : PoolId) (id : JobId) (jobOutcomes : Bool)
  | failJob (now : Time) (pool : PoolId) (id : JobId) (error : String)
  | completeJob (pool : PoolId) (id : JobId)
  | release (now : Time) (pools : List PoolId)
  /-- A step's write; `resolved` when `step.run` resolved with it. -/
  | checkpoint (k : ℕ) (id : String) (output : Option Json) (resolved : Bool)
  | setProgress (k : ℕ) (value : Json)
  | writeProgress (k : ℕ)
  | retry (now : Time) (k : ℕ) (runAt : Time)
  | settle (now : Time) (k : ℕ) (settle : Settle) (visible : WaitKey → Bool)
  | waitBegin (now : Time) (k : ℕ) (call : WaitCall)
  | waitLookup (id : JobId)
  | waitCommit (id : JobId) (prepared : List Prepared)
  | continueBegin (now : Time) (k : ℕ) (runAt : Option Time) (traceparent : Option String)
  | continueCommit (id : JobId)
  | rollback (id : JobId)
  /-- `seen` are the jobs of the statement's snapshot. -/
  | sweepLost (now : Time) (seen : JobId → Option Job) (skipped : WaitKey → Bool)
  | sweepWake (now : Time)
  | sweepOrphans

/-- What the caller of a step gets back. -/
inductive Reply where
  | done
  /-- `StepPersistenceError`, or `false` from `settleLockedJob`. -/
  | refused
  /-- An error raised before any statement ran. -/
  | rejected
  | entered (entered : Entered)
  | continued (id : JobId)

namespace State

variable (s : State)

/-! ## Row locks -/

def rowFree (id : JobId) : Bool := (s.txs.get? id).isNone

/-- No open transaction holds a row that `add_job` would write; `own` is its own transaction. -/
def planFree (own : Option JobId) : AddPlan → Bool
  | .insert => true
  | .replace id | .supersede id | .dedupe id => own = some id || s.rowFree id

def childrenFree (own : JobId) (now : Time) (queue : String) :
    List (Option Json × Prepared) → Db → Bool
  | [], _ => true
  | (input, prepared) :: children, db =>
    (match prepared with
      | .add options => s.planFree (some own) (planAdd db (childSpec queue input options))
      | .duplicate id => id < db.nextId && (own = id || s.rowFree id)) &&
    childrenFree own now queue children (enqueueChild now queue input db prepared).1

/-- No open transaction holds a group that the report counts or a parent that it wakes. -/
def reportFree (report : Report) : Bool :=
  !s.txs.any fun id tx =>
    (tx.heldWait.any fun waitId => 0 < s.db.reported report (id, waitId)) ||
      s.db.wakesParent (s.db.reported report) id

/-- A statement guarded by `owned()` finds no row, or one that no open transaction holds. -/
def ownedFree (helpers : HelpersJob) : Bool :=
  (s.db.owned helpers).isNone || s.rowFree helpers.id

/-! ## Steps -/

/-- A statement of an attempt outside the endings queue. -/
def write (k : ℕ) (statement : Attempt → Db → Option Db) : Option (State × Reply) :=
  match s.attempts.get? k with
  | none => none
  | some a =>
    if s.ownedFree a.job then
      match statement a s.db with
      | none => some (s, .refused)
      | some db => some ({ s with db }, .done)
    else none

def claim (now : Time) (pool : PoolId) (id : JobId) (jobOutcomes : Bool) :
    Option (State × Reply) :=
  match s.db.jobs.get? id with
  | none => none
  | some job =>
    if claimable now s.db job ∧ s.rowFree id ∧ now ≤ s.now then
      let lock : Lock := ⟨pool, now⟩
      let envelope := Payload.isPayloadEnvelope job.payload
      let attempt : Attempt := {
        job := .ofJob id (job.lockFor lock) lock
        lock
        jobOutcomes
        cache := Payload.extractStepCache job.payload
        progress := if envelope then job.payload.get? "progress" else none
        continueCalled := false
        ended := none }
      some ({ s with
        db := getJob now pool id job s.db
        attempts := s.attempts.insert s.nextAttempt attempt
        nextAttempt := s.nextAttempt + 1 }, .done)
    else none

/-- The handler runs: only with an envelope, and a context call needs a step id. -/
def callable (a : Attempt) (id : String) : Bool :=
  Payload.isPayloadEnvelope a.job.payload && id ≠ ""

/-- `createPgStepStore.set` for a step that is not cached. -/
def checkpoint (k : ℕ) (id : String) (output : Option Json) (resolved : Bool) :
    Option (State × Reply) :=
  match s.attempts.get? k with
  | none => none
  | some a =>
    if callable a id ∧ (a.cache id).isNone ∧ s.ownedFree a.job then
      match writeCheckpoint a.job id (entry output).toJson s.db with
      | .error _ => some (s, .refused)
      | .ok db =>
        let a' := if resolved then { a with cache := Function.update a.cache id (entry output) }
          else a
        some ({ s with db, attempts := s.attempts.insert k a' }, .done)
    else none

/-- `settleLockedJob`; a report waits for the groups and parents it writes. -/
def settle (now : Time) (k : ℕ) (settle : Settle) (visible : WaitKey → Bool) :
    Option (State × Reply) :=
  match s.attempts.get? k with
  | none => none
  | some a =>
    if now ≤ s.now ∧ ((s.db.owned a.job).isNone ∨ settle.report.all fun report =>
        s.reportFree (childReport a.job.id report visible)) then
      s.write k fun a db =>
        match settleJob now a.job settle visible db with
        | (db, true) => some db
        | (_, false) => none
    else none

/-- `enterWait` from `createWaitBackend`, up to the lock on its own row. -/
def waitBegin (now : Time) (k : ℕ) (call : WaitCall) : Option (State × Reply) :=
  match s.attempts.get? k with
  | none => none
  | some a =>
    if callable a call.waitId ∧ (a.cache call.waitId).isNone ∧
        s.ownedFree a.job ∧ now ≤ s.now then
      if a.ended.any (·.isContinued) then some (s, .rejected)
      else match s.db.owned a.job with
        | none => some (s, .refused)
        | some _ =>
          let tx : Tx := ⟨k, now, .waitLocked call a.ended.isSome⟩
          some ({ s with txs := s.txs.insert a.job.id tx }, .done)
    else none

/-- The locking read of the group. -/
def waitLookup (id : JobId) : Option (State × Reply) :=
  match s.txs.get? id with
  | some ⟨k, now, .waitLocked call suspended⟩ =>
    let tx : Tx := ⟨k, now, .waitLooked call suspended (findGroup now (id, call.waitId) s.db)⟩
    some ({ s with txs := s.txs.insert id tx }, .done)
  | _ => none

/-- The step store and the ending after a wait's transaction committed. -/
def Attempt.leave (a : Attempt) (waitId : String) : Entered → Attempt
  | .finished checkpoint =>
    { a with cache := Function.update a.cache waitId (some (.output checkpoint.toJson)) }
  | .suspended => { a with ended := a.ended <|> some (.waiting waitId) }

/-- The rest of `enterWait`, and its commit; a failing statement rolls it back. -/
def waitCommit (id : JobId) (prepared : List Prepared) : Option (State × Reply) :=
  match s.txs.get? id with
  | some ⟨k, now, .waitLooked call suspended found⟩ =>
    match s.attempts.get? k with
    | none => none
    | some a =>
      if found.isSome ∨ prepared.length = call.inputs.length ∧
          s.childrenFree id now call.queue (call.inputs.zip prepared)
            (insertGroup now (id, call.waitId) call s.db) then
        let txs := s.txs.erase id
        match enterWait now a.job call suspended found prepared s.db with
        | .error _ => some ({ s with txs }, .refused)
        | .ok (db, entered) =>
          let attempts := s.attempts.insert k (Attempt.leave a call.waitId entered)
          some ({ s with db, attempts, txs }, .entered entered)
      else none
  | _ => none

/-- `ctx.continue()`, up to the read of its own row. -/
def continueBegin (now : Time) (k : ℕ) (runAt : Option Time) (traceparent : Option String) :
    Option (State × Reply) :=
  match s.attempts.get? k with
  | none => none
  | some a =>
    if Payload.isPayloadEnvelope a.job.payload ∧ s.ownedFree a.job ∧ now ≤ s.now then
      if a.continueCalled ∨ a.ended.isSome then some (s, .rejected)
      else
        let attempts := s.attempts.insert k { a with continueCalled := true }
        match s.db.owned a.job with
        | none => some ({ s with attempts }, .refused)
        | some job =>
          let tx : Tx := ⟨k, now, .continuing job runAt traceparent a.progress⟩
          some ({ s with attempts, txs := s.txs.insert a.job.id tx }, .done)
    else none

/-- The rest of `continueJob`, and its commit. -/
def continueCommit (id : JobId) : Option (State × Reply) :=
  match s.txs.get? id with
  | some ⟨k, now, .continuing job runAt traceparent progress⟩ =>
    match s.attempts.get? k with
    | none => none
    | some a =>
      if s.planFree (some id) (planAdd s.db (continueSpec job runAt traceparent progress)) then
        let txs := s.txs.erase id
        match continueJob now a.job job runAt traceparent progress a.jobOutcomes s.db with
        | .error _ => some ({ s with txs }, .refused)
        | .ok (db, next) =>
          let a' := { a with ended := a.ended <|> some (.continued next) }
          some ({ s with db, attempts := s.attempts.insert k a', txs }, .continued next)
      else none
  | _ => none

/-- Take one step; `none` when it is not enabled. -/
def exec : Event → Option (State × Reply)
  | .tick d => some ({ s with now := s.now + d }, .done)
  | .addJob now spec =>
    if s.planFree none (planAdd s.db spec) ∧ now ≤ s.now then
      some ({ s with db := (BetterGraphileWorker.addJob now spec s.db).1 }, .done)
    else none
  | .claim now pool id jobOutcomes => s.claim now pool id jobOutcomes
  | .failJob now pool id error =>
    if s.rowFree id ∧ now ≤ s.now then
      some ({ s with db := BetterGraphileWorker.failJob now pool id error s.db }, .done)
    else none
  | .completeJob pool id =>
    if s.rowFree id then
      some ({ s with db := BetterGraphileWorker.completeJob pool id s.db }, .done)
    else none
  | .release now pools =>
    if (s.txs.any fun id _ =>
        (s.db.jobs.get? id).any fun job => pools.any job.lockedByPool) = false ∧ now ≤ s.now then
      some ({ s with db := releaseJobsLockedBy now pools s.db }, .done)
    else none
  | .checkpoint k id output resolved => s.checkpoint k id output resolved
  | .setProgress k value =>
    match s.attempts.get? k with
    | none => none
    | some a =>
      some ({ s with attempts := s.attempts.insert k { a with progress := some value } }, .done)
  | .writeProgress k =>
    match (s.attempts.get? k).bind (·.progress) with
    | none => none
    | some value =>
      s.write k fun a db => (BetterGraphileWorker.writeProgress a.job value db).toOption
  | .retry now k runAt =>
    if now ≤ s.now then
      s.write k fun a db => (scheduleRetry now a.job runAt db).toOption.map (·.1)
    else none
  | .settle now k settle visible => s.settle now k settle visible
  | .waitBegin now k call => s.waitBegin now k call
  | .waitLookup id => s.waitLookup id
  | .waitCommit id prepared => s.waitCommit id prepared
  | .continueBegin now k runAt traceparent => s.continueBegin now k runAt traceparent
  | .continueCommit id => s.continueCommit id
  | .rollback id =>
    match s.txs.get? id with
    | none => none
    | some _ => some ({ s with txs := s.txs.erase id }, .done)
  | .sweepLost now seen skipped =>
    if now ≤ s.now ∧ s.reportFree (lostReport s.db seen skipped) then
      some ({ s with db := BetterGraphileWorker.sweepLost now seen skipped s.db }, .done)
    else none
  | .sweepWake now =>
    if now ≤ s.now then
      some ({ s with db := BetterGraphileWorker.sweepWake now s.db }, .done)
    else none
  | .sweepOrphans => some ({ s with db := BetterGraphileWorker.sweepOrphans s.db }, .done)

end State

/-- The system: an empty database after `migrate()`, then any enabled steps. -/
def system : TransitionSystem State Event where
  Init s := s = State.initial
  step s e := (s.exec e).map (·.1)

end BetterGraphileWorker
