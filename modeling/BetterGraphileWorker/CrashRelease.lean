-- SUMMARY: Crash recovery: heartbeats, sweepDeadWorkers as a transaction of several statements, and what it releases.
import BetterGraphileWorker.Library.Runs
import BetterGraphileWorker.Database.Effects

/-!
# Crash release

`sweepDeadWorkers` claims stale heartbeat rows, releases the jobs and lanes of their pools in
a second statement, and commits. Claims, completions, heartbeats and other sweeps run between
its statements. What it has written stays locked, and invisible, until it commits.
-/

namespace BetterGraphileWorker

/-! ## Jobs and lanes -/

/-- What a pool locks: a job row or a lane. -/
inductive Lockable where
  | job (id : JobId)
  | lane (queueName : String)
deriving DecidableEq

/-- `locked_by`. -/
def Db.holder (db : Db) : Lockable → Option PoolId
  | .job id => (db.jobs.get? id).bind fun job => job.lock.map (·.lockedBy)
  | .lane q => db.lanes q

/-- The effect of `releaseJobsLockedBy` on the rows that its statement wrote. -/
def releaseRows (now : Time) (pools : List PoolId) (rows : Lockable → Bool) (db : Db) : Db :=
  { db with
    jobs := db.jobs.modify fun id job => if rows (.job id) then job.release now pools else job
    lanes := fun q => if rows (.lane q) then (db.lanes q).filter (· ∉ pools) else db.lanes q }

/-! ## The transaction -/

inductive DeadSweepStage where
  | begun
  /-- The heartbeat rows of these pools are deleted. -/
  | claimed (pools : List PoolId)
  /-- The release statement has its snapshot. -/
  | releasing (pools : List PoolId) (snap : Db)
  /-- The release statement has written these rows. -/
  | released (pools : List PoolId) (rows : Lockable → Bool)

/-- An open transaction of `sweepDeadWorkers`. -/
structure DeadSweep where
  /-- `now()` of the transaction. -/
  now : Time
  /-- In milliseconds. -/
  staleAfter : ℕ
  sweeper : Option PoolId
  stage : DeadSweepStage

/-- The pools whose heartbeat rows the transaction holds. -/
def DeadSweep.pools (sweep : DeadSweep) : List PoolId :=
  match sweep.stage with
  | .begun => []
  | .claimed pools | .releasing pools _ | .released pools _ => pools

/-- The jobs and lanes that the transaction holds. -/
def DeadSweep.rows (sweep : DeadSweep) : Lockable → Bool :=
  match sweep.stage with
  | .released _ rows => rows
  | _ => fun _ => false

/-- `last_seen_at < now() - staleAfter`. -/
def DeadSweep.stale (sweep : DeadSweep) (lastSeen : Time) : Bool :=
  lastSeen < sweep.now - 1000 * sweep.staleAfter

structure CrashState where
  now : Time
  db : Db
  /-- `bgw_worker_heartbeats`. -/
  beats : Table PoolId Time
  sweeps : Table ℕ DeadSweep

def CrashState.initial : CrashState := ⟨0, Db.initial, ∅, ∅⟩

inductive CrashEvent where
  | tick (d : ℕ)
  | addJob (now : Time) (spec : JobSpec)
  | claim (now : Time) (pool : PoolId) (id : JobId)
  | complete (pool : PoolId) (id : JobId)
  | fail (now : Time) (pool : PoolId) (id : JobId) (error : String)
  | beat (now : Time) (pool : PoolId)
  | begin (i : ℕ) (now : Time) (staleAfter : ℕ) (sweeper : Option PoolId)
  /-- `DELETE ... FOR UPDATE SKIP LOCKED`; `skipped` rows were locked, or not in its snapshot. -/
  | claimDead (i : ℕ) (skipped : PoolId → Bool)
  | releaseBegin (i : ℕ)
  | release (i : ℕ)
  | commit (i : ℕ)
  | abort (i : ℕ)

namespace CrashState

variable (s : CrashState)

/-- No open sweep holds the job or lane. -/
def free (x : Lockable) : Bool := !s.sweeps.any fun _ sweep => sweep.rows x

/-- No open sweep holds the heartbeat row. -/
def beatFree (pool : PoolId) : Bool := !s.sweeps.any fun _ sweep => pool ∈ sweep.pools

/-- A completion or failure of the job writes only free rows. -/
def endFree (id : JobId) : Bool :=
  s.free (.job id) && (s.db.jobs.get? id).all fun job => job.queueName.all fun q => s.free (.lane q)

/-- `add_job` writes only free rows. -/
def addFree (spec : JobSpec) : Bool :=
  match planAdd s.db spec with
  | .insert | .dedupe _ => true
  | .replace id | .supersede id => s.free (.job id)

def setStage (i : ℕ) (sweep : DeadSweep) (stage : DeadSweepStage) : CrashState :=
  { s with sweeps := s.sweeps.insert i { sweep with stage } }

/-- The pools whose heartbeat rows a sweep claims. -/
def deadPools (sweep : DeadSweep) (skipped : PoolId → Bool) : List PoolId :=
  s.beats.keys fun pool lastSeen =>
    sweep.stale lastSeen && sweep.sweeper ≠ some pool && !skipped pool && s.beatFree pool

/-- The rows that a release statement writes: its snapshot selects them and they still match. -/
def releasedRows (pools : List PoolId) (snap : Db) (x : Lockable) : Bool :=
  (snap.holder x).any (· ∈ pools) && (s.db.holder x).any (· ∈ pools)

def claimDead (i : ℕ) (skipped : PoolId → Bool) : Option CrashState :=
  match s.sweeps.get? i with
  | some sweep =>
    match sweep.stage with
    | .begun => some (s.setStage i sweep (.claimed (s.deadPools sweep skipped)))
    | _ => none
  | none => none

/-- Without dead pools there is no release statement. -/
def releaseBegin (i : ℕ) : Option CrashState :=
  match s.sweeps.get? i with
  | some sweep =>
    match sweep.stage with
    | .claimed pools => if pools = [] then none else some (s.setStage i sweep (.releasing pools s.db))
    | _ => none
  | none => none

def release (i : ℕ) : Option CrashState :=
  match s.sweeps.get? i with
  | some sweep =>
    match sweep.stage with
    | .releasing pools snap =>
      some (s.setStage i sweep (.released pools (s.releasedRows pools snap)))
    | _ => none
  | none => none

def commit (i : ℕ) : Option CrashState :=
  match s.sweeps.get? i with
  | some sweep =>
    let sweeps := s.sweeps.erase i
    match sweep.stage with
    | .claimed [] => some { s with sweeps }
    | .released pools rows =>
      let db := releaseRows sweep.now pools rows s.db
      some { s with db, beats := s.beats.filter fun pool _ => pool ∉ pools, sweeps }
    | _ => none
  | none => none

/-- An error in any statement rolls the transaction back. -/
def abort (i : ℕ) : Option CrashState :=
  (s.sweeps.get? i).map fun _ => { s with sweeps := s.sweeps.erase i }

/-- `get_job` of one job. -/
def claim (now : Time) (pool : PoolId) (id : JobId) : Option CrashState :=
  match s.db.jobs.get? id with
  | none => none
  | some job =>
    if claimable now s.db job ∧ now ≤ s.now then some { s with db := getJob now pool id job s.db }
    else none

def step : CrashEvent → Option CrashState
  | .tick d => some { s with now := s.now + d }
  | .addJob now spec =>
    if s.addFree spec ∧ now ≤ s.now then some { s with db := (BetterGraphileWorker.addJob now spec s.db).1 }
    else none
  | .claim now pool id => s.claim now pool id
  | .complete pool id =>
    if s.endFree id then some { s with db := completeJob pool id s.db } else none
  | .fail now pool id error =>
    if s.endFree id ∧ now ≤ s.now then some { s with db := failJob now pool id error s.db } else none
  | .beat now pool =>
    if s.beatFree pool ∧ now ≤ s.now then some { s with beats := s.beats.insert pool now } else none
  | .begin i now staleAfter sweeper =>
    if s.sweeps.get? i = none ∧ now ≤ s.now then
      some { s with sweeps := s.sweeps.insert i ⟨now, staleAfter, sweeper, .begun⟩ }
    else none
  | .claimDead i skipped => s.claimDead i skipped
  | .releaseBegin i => s.releaseBegin i
  | .release i => s.release i
  | .commit i => s.commit i
  | .abort i => s.abort i

end CrashState

def crashes : TransitionSystem CrashState CrashEvent where
  Init s := s = CrashState.initial
  step s e := s.step e

/-! ## The history of the locks -/

structure Releases where
  /-- How often the job or lane was locked. -/
  serial : Lockable → ℕ
  /-- How many sweeps released its `n`th lock. -/
  freed : Lockable → ℕ → ℕ
  /-- The locks of dead pools in the snapshot of a sweep's release statement. -/
  asOf : ℕ → Lockable → Option ℕ

def Releases.start : Releases := ⟨fun _ => 0, fun _ _ => 0, fun _ _ => none⟩

/-- The locks of a sweep's pools. -/
def CrashState.deadLocks (s : CrashState) (i : ℕ) (serial : Lockable → ℕ) (x : Lockable) : Option ℕ :=
  if (s.sweeps.get? i).any fun sweep => (s.db.holder x).any (· ∈ sweep.pools) then some (serial x)
  else none

def Releases.note (s : CrashState) (e : CrashEvent) (s' : CrashState) (h : Releases) : Releases where
  serial x := if s.db.holder x = none ∧ s'.db.holder x ≠ none then h.serial x + 1 else h.serial x
  freed x n :=
    match e with
    | .commit _ =>
      if s.db.holder x ≠ none ∧ s'.db.holder x = none ∧ n = h.serial x then h.freed x n + 1
      else h.freed x n
    | _ => h.freed x n
  asOf i :=
    match e with
    | .begin j _ _ _ => if j = i then fun _ => none else h.asOf i
    | .releaseBegin j => if j = i then s.deadLocks i h.serial else h.asOf i
    | _ => h.asOf i

/-- The system with the history of its locks. -/
def releases : TransitionSystem (CrashState × Releases) CrashEvent :=
  crashes.observe .start Releases.note

variable {s s' : CrashState} {e : CrashEvent} {h : Releases} {i j : ℕ} {x : Lockable}

/-! ## What a step does -/

/-- Every step with its guards. -/
inductive CrashStep (s : CrashState) : CrashEvent → CrashState → Prop where
  | tick {d : ℕ} : CrashStep s (.tick d) { s with now := s.now + d }
  | addJob {now : Time} {spec : JobSpec} (hfree : s.addFree spec = true) (hnow : now ≤ s.now) :
      CrashStep s (.addJob now spec) { s with db := (addJob now spec s.db).1 }
  | claim {now : Time} {pool : PoolId} {id : JobId} {job : Job} (hrow : s.db.jobs.get? id = some job)
      (hclaim : claimable now s.db job = true) (hnow : now ≤ s.now) :
      CrashStep s (.claim now pool id) { s with db := getJob now pool id job s.db }
  | complete {pool : PoolId} {id : JobId} (hfree : s.endFree id = true) :
      CrashStep s (.complete pool id) { s with db := completeJob pool id s.db }
  | fail {now : Time} {pool : PoolId} {id : JobId} {error : String} (hfree : s.endFree id = true)
      (hnow : now ≤ s.now) :
      CrashStep s (.fail now pool id error) { s with db := failJob now pool id error s.db }
  | beat {now : Time} {pool : PoolId} (hfree : s.beatFree pool = true) (hnow : now ≤ s.now) :
      CrashStep s (.beat now pool) { s with beats := s.beats.insert pool now }
  | begin {i : ℕ} {now : Time} {staleAfter : ℕ} {sweeper : Option PoolId}
      (hnone : s.sweeps.get? i = none) (hnow : now ≤ s.now) :
      CrashStep s (.begin i now staleAfter sweeper)
        { s with sweeps := s.sweeps.insert i ⟨now, staleAfter, sweeper, .begun⟩ }
  | claimDead {i : ℕ} {skipped : PoolId → Bool} {sweep : DeadSweep}
      (hi : s.sweeps.get? i = some sweep) (hstage : sweep.stage = .begun) :
      CrashStep s (.claimDead i skipped) (s.setStage i sweep (.claimed (s.deadPools sweep skipped)))
  | releaseBegin {i : ℕ} {sweep : DeadSweep} {pools : List PoolId}
      (hi : s.sweeps.get? i = some sweep) (hstage : sweep.stage = .claimed pools) :
      CrashStep s (.releaseBegin i) (s.setStage i sweep (.releasing pools s.db))
  | release {i : ℕ} {sweep : DeadSweep} {pools : List PoolId} {snap : Db}
      (hi : s.sweeps.get? i = some sweep) (hstage : sweep.stage = .releasing pools snap) :
      CrashStep s (.release i) (s.setStage i sweep (.released pools (s.releasedRows pools snap)))
  | commitNone {i : ℕ} {sweep : DeadSweep} (hi : s.sweeps.get? i = some sweep)
      (hstage : sweep.stage = .claimed []) :
      CrashStep s (.commit i) { s with sweeps := s.sweeps.erase i }
  | commit {i : ℕ} {sweep : DeadSweep} {pools : List PoolId} {rows : Lockable → Bool}
      (hi : s.sweeps.get? i = some sweep) (hstage : sweep.stage = .released pools rows) :
      CrashStep s (.commit i)
        { s with
          db := releaseRows sweep.now pools rows s.db
          beats := s.beats.filter fun pool _ => pool ∉ pools
          sweeps := s.sweeps.erase i }
  | abort {i : ℕ} {sweep : DeadSweep} (hi : s.sweeps.get? i = some sweep) :
      CrashStep s (.abort i) { s with sweeps := s.sweeps.erase i }

theorem crash_step (hstep : s.step e = some s') : CrashStep s e s' := by
  cases e with
  | tick d =>
    obtain rfl := Option.some.inj hstep
    exact .tick
  | addJob now spec | fail now pool id error | beat now pool | begin i now staleAfter sweeper =>
    simp only [CrashState.step] at hstep
    split at hstep
    · rename_i hguard
      obtain rfl := Option.some.inj hstep
      constructor
      · exact hguard.1
      · exact hguard.2
    · cases hstep
  | complete pool id =>
    simp only [CrashState.step] at hstep
    split at hstep
    · rename_i hfree
      obtain rfl := Option.some.inj hstep
      exact .complete hfree
    · cases hstep
  | claim now pool id =>
    simp only [CrashState.step, CrashState.claim] at hstep
    split at hstep
    · cases hstep
    · rename_i job hrow
      split at hstep
      · rename_i hguard
        obtain rfl := Option.some.inj hstep
        exact .claim hrow hguard.1 hguard.2
      · cases hstep
  | claimDead i skipped =>
    simp only [CrashState.step, CrashState.claimDead] at hstep
    split at hstep
    · rename_i sweep hi
      split at hstep
      · rename_i hstage
        obtain rfl := Option.some.inj hstep
        exact .claimDead hi hstage
      · cases hstep
    · cases hstep
  | releaseBegin i =>
    simp only [CrashState.step, CrashState.releaseBegin] at hstep
    split at hstep
    · rename_i sweep hi
      split at hstep
      · rename_i pools hstage
        split at hstep
        · cases hstep
        · obtain rfl := Option.some.inj hstep
          exact .releaseBegin hi hstage
      · cases hstep
    · cases hstep
  | release i =>
    simp only [CrashState.step, CrashState.release] at hstep
    split at hstep
    · rename_i sweep hi
      split at hstep
      · rename_i pools snap hstage
        obtain rfl := Option.some.inj hstep
        exact .release hi hstage
      · cases hstep
    · cases hstep
  | commit i =>
    simp only [CrashState.step, CrashState.commit] at hstep
    split at hstep
    · rename_i sweep hi
      split at hstep
      · rename_i hstage
        obtain rfl := Option.some.inj hstep
        exact .commitNone hi hstage
      · rename_i pools rows hstage
        obtain rfl := Option.some.inj hstep
        exact .commit hi hstage
      · cases hstep
    · cases hstep
  | abort i =>
    obtain ⟨sweep, hi, rfl⟩ := Option.map_eq_some_iff.mp hstep
    exact .abort hi

/-- What a step does to who holds a job or lane. -/
inductive HolderChange (s : CrashState) (e : CrashEvent) (s' : CrashState) (x : Lockable) : Prop where
  | same (hsame : s'.db.holder x = s.db.holder x)
  | locked {now : Time} {pool : PoolId} {id : JobId} (he : e = .claim now pool id)
      (hid : ∀ id', x = .job id' → id' = id) (hnone : s.db.holder x = none)
      (hsome : s'.db.holder x = some pool)
  | ended (hfree : s.free x = true) (hnone : s'.db.holder x = none)
  | released {i : ℕ} {sweep : DeadSweep} (he : e = .commit i) (hi : s.sweeps.get? i = some sweep)
      (hrow : sweep.rows x = true) (hnone : s'.db.holder x = none)

/-- What a step does to an open sweep. -/
inductive SweepChange (s : CrashState) (e : CrashEvent) (i : ℕ) : Option DeadSweep → DeadSweep → Prop
    where
  | same (sweep : DeadSweep) (hbegin : ∀ now staleAfter sweeper, e ≠ .begin i now staleAfter sweeper)
      (hrelease : e ≠ .releaseBegin i) (hcommit : e ≠ .commit i) : SweepChange s e i (some sweep) sweep
  | begun {now : Time} {staleAfter : ℕ} {sweeper : Option PoolId}
      (he : e = .begin i now staleAfter sweeper) :
      SweepChange s e i none ⟨now, staleAfter, sweeper, .begun⟩
  | claimed (sweep : DeadSweep) {skipped : PoolId → Bool} (he : e = .claimDead i skipped)
      (hstage : sweep.stage = .begun) :
      SweepChange s e i (some sweep)
        { sweep with stage := .claimed (s.deadPools sweep skipped) }
  | releasing (sweep : DeadSweep) {pools : List PoolId} (he : e = .releaseBegin i)
      (hstage : sweep.stage = .claimed pools) :
      SweepChange s e i (some sweep) { sweep with stage := .releasing pools s.db }
  | released (sweep : DeadSweep) {pools : List PoolId} {snap : Db} (he : e = .release i)
      (hstage : sweep.stage = .releasing pools snap) :
      SweepChange s e i (some sweep)
        { sweep with stage := .released pools (s.releasedRows pools snap) }

theorem setStage_change {sweep : DeadSweep} {stage : DeadSweepStage}
    (hi : s.sweeps.get? i = some sweep)
    (hstep : SweepChange s e i (some sweep) { sweep with stage })
    (hother : ∀ j, j ≠ i → e ≠ .releaseBegin j ∧ e ≠ .commit j ∧
      ∀ now staleAfter sweeper, e ≠ .begin j now staleAfter sweeper)
    {sweep' : DeadSweep} (hj : (s.setStage i sweep stage).sweeps.get? j = some sweep') :
    SweepChange s e j (s.sweeps.get? j) sweep' := by
  simp only [CrashState.setStage, Table.get?_insert] at hj
  split at hj
  · rename_i hji
    obtain rfl := Option.some.inj hj
    rw [hji, hi]
    exact hstep
  · rename_i hji
    obtain ⟨hrelease, hcommit, hbegin⟩ := hother j hji
    rw [hj]
    exact .same sweep' hbegin hrelease hcommit

private theorem erase_change (hbegin : ∀ j now staleAfter sweeper, e ≠ .begin j now staleAfter sweeper)
    (hrelease : ∀ j, e ≠ .releaseBegin j) (hcommit : e ≠ .commit i ∨ i = j) {sweep' : DeadSweep}
    (hi : (s.sweeps.erase j).get? i = some sweep') : SweepChange s e i (s.sweeps.get? i) sweep' := by
  rw [Table.get?_erase] at hi
  split at hi
  · cases hi
  · rename_i hij
    rw [hi]
    exact .same sweep' (hbegin i) (hrelease i) (hcommit.resolve_right hij)

theorem sweep_change (hstep : s.step e = some s') {sweep' : DeadSweep}
    (hi : s'.sweeps.get? i = some sweep') : SweepChange s e i (s.sweeps.get? i) sweep' := by
  cases crash_step hstep with
  | tick | addJob | claim | complete | fail | beat =>
    rw [show s.sweeps.get? i = some sweep' from hi]
    exact .same sweep' (by simp) (by simp) (by simp)
  | @begin j now staleAfter sweeper hnone hnow =>
    simp only [Table.get?_insert] at hi
    split at hi
    · rename_i hij
      obtain rfl := Option.some.inj hi
      rw [hij, hnone]
      exact .begun rfl
    · rename_i hij
      rw [hi]
      exact .same sweep' (by simp [Ne.symm hij]) (by simp) (by simp)
  | claimDead hj hstage => exact setStage_change hj (.claimed _ rfl hstage) (by simp) hi
  | releaseBegin hj hstage =>
    exact setStage_change hj (.releasing _ rfl hstage) (by simp +contextual [eq_comm]) hi
  | release hj hstage => exact setStage_change hj (.released _ rfl hstage) (by simp) hi
  | @commitNone j | @commit j =>
    refine erase_change (by simp) (by simp) ?_ hi
    cases decEq i j with
    | isTrue hij => exact .inr hij
    | isFalse hij => exact .inl (by simp [Ne.symm hij])
  | abort hj => exact erase_change (by simp) (by simp) (.inl (by simp)) hi

/-- The job or lane is the row that ends, or the lane of its job. -/
def Db.endsWith (db : Db) (id : JobId) (x : Lockable) : Prop :=
  x = .job id ∨ ∃ job q, db.jobs.get? id = some job ∧ job.queueName = some q ∧ x = .lane q

private theorem free_of_endsWith {id : JobId} (hfree : s.endFree id = true)
    (hx : s.db.endsWith id x) : s.free x = true := by
  simp only [CrashState.endFree, Bool.and_eq_true] at hfree
  rcases hx with rfl | ⟨job, q, hrow, hq, rfl⟩
  · exact hfree.1
  · simpa [hrow, hq] using hfree.2

section
variable {db : Db} {pool : PoolId} {id : JobId} {now : Time}

private theorem holder_unlockLane (db : Db) (queueName : Option String) (pool : PoolId)
    (x : Lockable) :
    (db.unlockLane queueName pool).holder x = db.holder x ∨
      (∃ q, queueName = some q ∧ x = .lane q) ∧ (db.unlockLane queueName pool).holder x = none := by
  cases x with
  | job id => exact .inl rfl
  | lane q =>
    simp only [Db.holder, Db.unlockLane]
    split
    · rename_i hmatch
      exact .inr ⟨⟨q, hmatch.1.symm, rfl⟩, rfl⟩
    · exact .inl rfl

private theorem holder_completeJob : (completeJob pool id db).holder x = db.holder x ∨
    db.endsWith id x ∧ (completeJob pool id db).holder x = none := by
  unfold completeJob
  cases hrow : db.jobs.get? id with
  | none => exact .inl rfl
  | some job =>
    rcases holder_unlockLane (db.deleteJob id) job.queueName pool x with hsame | ⟨⟨q, hq, rfl⟩, hnone⟩
    · cases x with
      | lane q => exact .inl hsame
      | job id' =>
        dsimp only
        rw [hsame]
        simp only [Db.holder, Db.deleteJob, Table.get?_erase]
        split
        · rename_i hid
          exact .inr ⟨.inl (by rw [hid]), rfl⟩
        · exact .inl rfl
    · exact .inr ⟨.inr ⟨job, q, hrow, hq, rfl⟩, hnone⟩

private theorem holder_failJob {error : String} :
    (failJob now pool id error db).holder x = db.holder x ∨
      db.endsWith id x ∧ (failJob now pool id error db).holder x = none := by
  unfold failJob
  cases hrow : (db.jobs.get? id).filter (·.lockedByPool pool) with
  | none => exact .inl rfl
  | some job =>
    obtain ⟨hget, -⟩ := Option.filter_eq_some_iff.mp hrow
    rcases holder_unlockLane (db.updateJob id (·.fail now error)) job.queueName pool x with hsame | ⟨⟨q, hq, rfl⟩, hnone⟩
    · cases x with
      | lane q => exact .inl hsame
      | job id' =>
        dsimp only
        rw [hsame]
        simp only [Db.holder, Db.updateJob_jobs, Table.get?_update]
        split
        · rename_i hid
          subst hid
          exact .inr ⟨.inl rfl, by simp [hget, Job.fail]⟩
        · exact .inl rfl
    · exact .inr ⟨.inr ⟨job, q, hget, hq, rfl⟩, hnone⟩

private theorem holder_getJob {job : Job} (hrow : db.jobs.get? id = some job)
    (hclaim : claimable now db job = true) : (getJob now pool id job db).holder x = db.holder x ∨
      (∀ id', x = .job id' → id' = id) ∧ db.holder x = none ∧
        (getJob now pool id job db).holder x = some pool := by
  simp only [claimable, Job.available, Bool.and_eq_true, Option.isNone_iff_eq_none] at hclaim
  obtain ⟨⟨⟨hlock, -⟩, -⟩, hlane⟩ := hclaim
  cases x with
  | job id' =>
    simp only [Db.holder, get?_getJob]
    split
    · rename_i hid
      subst hid
      exact .inr (by simp [hrow, hlock, Job.lockFor])
    · exact .inl rfl
  | lane q =>
    simp only [Db.holder, getJob]
    split
    · rename_i hq
      exact .inr ⟨by simp, by simpa [← hq] using hlane, rfl⟩
    · exact .inl rfl

private theorem holder_addJob (hbelow : db.IdsBelow) (spec : JobSpec) :
    (addJob now spec db).1.holder x = db.holder x := by
  have henq := enqueued_addJob now spec hbelow
  cases x with
  | lane q => exact congrFun henq.lanes q
  | job id =>
    simp only [Db.holder]
    cases hrow : db.jobs.get? id with
    | some job =>
      obtain ⟨job', hrow', hr⟩ := henq.kept id job hrow
      simp [hrow', hr.lock]
    | none =>
      cases hrow' : (addJob now spec db).1.jobs.get? id with
      | none => rfl
      | some job' => simp [(henq.fresh id job' hrow' hrow).2]

theorem holder_releaseRows {pools : List PoolId} {rows : Lockable → Bool} :
    (releaseRows now pools rows db).holder x =
      if rows x then (db.holder x).filter (· ∉ pools) else db.holder x := by
  cases x with
  | lane q => rfl
  | job id =>
    simp only [Db.holder, releaseRows, Table.get?_modify]
    cases db.jobs.get? id with
    | none => simp
    | some job =>
      cases hrows : rows (.job id) with
      | false => simp
      | true =>
        cases hlock : job.lock with
        | none => simp [Job.release, hlock]
        | some lock =>
          cases decEq (decide (lock.lockedBy ∈ pools)) true with
          | isTrue hmem =>
            have hmem : lock.lockedBy ∈ pools := of_decide_eq_true hmem
            simp [Job.release, Job.fail, hlock, hmem, Option.filter]
          | isFalse hmem =>
            have hmem : lock.lockedBy ∉ pools := fun h => hmem (decide_eq_true h)
            simp [Job.release, hlock, hmem, Option.filter]

end

/-- Only a pool's claim locks a job or lane, and only a commit releases one that a sweep holds. -/
theorem holder_change (hbelow : s.db.IdsBelow)
    (hrows : ∀ i sweep x, s.sweeps.get? i = some sweep → sweep.rows x = true →
      ∃ pool ∈ sweep.pools, s.db.holder x = some pool)
    (hstep : s.step e = some s') (x : Lockable) : HolderChange s e s' x := by
  cases crash_step hstep with
  | tick | beat | begin | claimDead | releaseBegin | release | commitNone | abort => exact .same rfl
  | addJob => exact .same (holder_addJob hbelow _)
  | claim hrow hclaim =>
    rcases holder_getJob hrow hclaim with hsame | ⟨hid, hnone, hsome⟩
    · exact .same hsame
    · exact .locked rfl hid hnone hsome
  | complete hfree =>
    rcases holder_completeJob with hsame | ⟨hends, hnone⟩
    · exact .same hsame
    · exact .ended (free_of_endsWith hfree hends) hnone
  | fail hfree =>
    rcases holder_failJob with hsame | ⟨hends, hnone⟩
    · exact .same hsame
    · exact .ended (free_of_endsWith hfree hends) hnone
  | @commit j sweep pools rows hj hstage =>
    cases hrow : rows x with
    | false => exact .same (by simp [holder_releaseRows, hrow])
    | true =>
      have hheld : sweep.rows x = true := by simpa [DeadSweep.rows, hstage] using hrow
      obtain ⟨pool, hmem, hholder⟩ := hrows j sweep x hj hheld
      have hpool : pool ∈ pools := by simpa [DeadSweep.pools, hstage] using hmem
      exact .released rfl hj hheld (by simp [holder_releaseRows, hrow, hholder, hpool])

/-! ## What a run keeps -/

/-- A lock of `x` that the release statement of sweep `i` found is still that sweep's to release. -/
def Releases.Due (s : CrashState) (h : Releases) (i : ℕ) (sweep : DeadSweep) (x : Lockable) : Prop :=
  match sweep.stage with
  | .begun | .claimed _ => h.asOf i x = none
  | .releasing pools snap => ∀ n, h.asOf i x = some n → n ≤ h.serial x ∧
      (snap.holder x).any (· ∈ pools) = true ∧
      (s.db.holder x ≠ none → h.serial x = n → (s.db.holder x).any (· ∈ pools) = true)
  | .released _ rows => ∀ n, h.asOf i x = some n → n ≤ h.serial x ∧
      (s.db.holder x ≠ none → h.serial x = n → rows x = true)

structure CrashState.Ok (s : CrashState) : Prop where
  below : s.db.IdsBelow
  /-- A claimed heartbeat row stays stale. -/
  dead : ∀ i sweep, s.sweeps.get? i = some sweep → ∀ pool ∈ sweep.pools,
    sweep.sweeper ≠ some pool ∧ ∃ seen, s.beats.get? pool = some seen ∧ sweep.stale seen = true
  apart : ∀ i j a b, s.sweeps.get? i = some a → s.sweeps.get? j = some b → i ≠ j →
    ∀ pool ∈ a.pools, pool ∉ b.pools
  rows : ∀ i sweep x, s.sweeps.get? i = some sweep → sweep.rows x = true →
    ∃ pool ∈ sweep.pools, s.db.holder x = some pool

structure Releases.Ok (s : CrashState) (h : Releases) : Prop where
  due : ∀ i sweep, s.sweeps.get? i = some sweep → ∀ x, h.Due s i sweep x
  once : ∀ x n, h.freed x n ≤ 1
  later : ∀ x n, h.serial x < n → h.freed x n = 0
  current : ∀ x, s.db.holder x ≠ none → h.freed x (h.serial x) = 0

/-- What a step does to a heartbeat row. -/
inductive BeatChange (s : CrashState) (e : CrashEvent) (pool : PoolId) : Option Time → Prop where
  | same : BeatChange s e pool (s.beats.get? pool)
  | beaten {now : Time} (he : e = .beat now pool) (hfree : s.beatFree pool = true) :
      BeatChange s e pool (some now)
  | deleted {i : ℕ} {sweep : DeadSweep} (he : e = .commit i) (hi : s.sweeps.get? i = some sweep)
      (hpool : pool ∈ sweep.pools) : BeatChange s e pool none

theorem beat_change (hstep : s.step e = some s') (pool : PoolId) :
    BeatChange s e pool (s'.beats.get? pool) := by
  cases crash_step hstep with
  | tick | addJob | claim | complete | fail | begin | claimDead | releaseBegin | release | commitNone
  | abort => exact .same
  | @beat now p hfree hnow =>
    simp only [Table.get?_insert]
    split
    · rename_i hp
      subst hp
      exact .beaten rfl hfree
    · exact .same
  | @commit j sweep pools rows hj hstage =>
    simp only [Table.get?_filter]
    cases hpool : decide (pool ∈ pools) with
    | true =>
      have hnone : (s.beats.get? pool).filter (fun _ => decide (pool ∉ pools)) = none := by
        simp [of_decide_eq_true hpool]
      rw [hnone]
      exact .deleted rfl hj (by simpa [DeadSweep.pools, hstage] using hpool)
    | false =>
      have hkept : (s.beats.get? pool).filter (fun _ => decide (pool ∉ pools)) = s.beats.get? pool := by
        cases s.beats.get? pool with
        | none => rfl
        | some seen => simp [Option.filter, hpool]
      rw [hkept]
      exact .same

private theorem not_mem_of_beatFree {pool : PoolId} (hfree : s.beatFree pool = true)
    {sweep : DeadSweep} (hi : s.sweeps.get? i = some sweep) : pool ∉ sweep.pools := by
  intro hpool
  have hany : (s.sweeps.any fun _ sweep => pool ∈ sweep.pools) = true :=
    Table.any_iff.mpr ⟨i, sweep, hi, decide_eq_true hpool⟩
  simp [CrashState.beatFree, hany] at hfree

private theorem not_rows_of_free (hfree : s.free x = true) {sweep : DeadSweep}
    (hi : s.sweeps.get? i = some sweep) : sweep.rows x = false := by
  cases hrow : sweep.rows x with
  | false => rfl
  | true =>
    have hany : (s.sweeps.any fun _ sweep => sweep.rows x) = true :=
      Table.any_iff.mpr ⟨i, sweep, hi, hrow⟩
    simp [CrashState.free, hany] at hfree

section
variable {pool : PoolId} {sweep : DeadSweep}

/-- Only its own commit touches a heartbeat row that a sweep claimed. -/
private theorem beat_kept (hok : s.Ok) (hstep : s.step e = some s')
    (hi : s.sweeps.get? i = some sweep) (hcommit : e ≠ .commit i) (hpool : pool ∈ sweep.pools) :
    s'.beats.get? pool = s.beats.get? pool := by
  have hchange := beat_change hstep pool
  generalize s'.beats.get? pool = seen at hchange
  cases hchange with
  | same => rfl
  | beaten he hfree => exact absurd hpool (not_mem_of_beatFree hfree hi)
  | deleted he hj hmem =>
    refine absurd hmem (hok.apart i _ sweep _ hi hj ?_ pool hpool)
    rintro rfl
    exact hcommit he

/-- Only its own commit touches a job or lane that a sweep holds. -/
private theorem holder_kept (hok : s.Ok) (hstep : s.step e = some s')
    (hi : s.sweeps.get? i = some sweep) (hcommit : e ≠ .commit i) (hrow : sweep.rows x = true) :
    s'.db.holder x = s.db.holder x := by
  obtain ⟨pool, hpool, hholder⟩ := hok.rows i sweep x hi hrow
  cases holder_change hok.below hok.rows hstep x with
  | same hsame => exact hsame
  | locked he hid hnone hsome => simp [hnone] at hholder
  | ended hfree hnone => simp [not_rows_of_free hfree hi] at hrow
  | released he hj hrow' hnone =>
    obtain ⟨pool', hpool', hholder'⟩ := hok.rows _ _ x hj hrow'
    obtain rfl : pool = pool' := by simpa [hholder] using hholder'
    refine absurd hpool' (hok.apart i _ sweep _ hi hj ?_ pool hpool)
    rintro rfl
    exact hcommit he

end

/-- A statement of a sweep that has not committed, or its rollback. -/
def CrashEvent.uncommitted : CrashEvent → Prop
  | .begin .. | .claimDead .. | .releaseBegin .. | .release .. | .abort .. => True
  | _ => False

theorem uncommitted_step (hstep : s.step e = some s') (he : e.uncommitted) :
    s'.db = s.db ∧ s'.beats = s.beats := by
  cases crash_step hstep with
  | begin | claimDead | releaseBegin | release | abort => exact ⟨rfl, rfl⟩
  | tick | addJob | claim | complete | fail | beat | commitNone | commit => cases he

private theorem idsBelow_of_rows {db db' : Db} (hbelow : db.IdsBelow) (hnext : db'.nextId = db.nextId)
    (hrows : ∀ id, (db'.jobs.get? id).isSome → (db.jobs.get? id).isSome) : db'.IdsBelow := by
  intro id job' hrow'
  have hsome := hrows id (by simp [hrow'])
  obtain ⟨job, hrow⟩ := Option.isSome_iff_exists.mp hsome
  exact hnext ▸ hbelow id job hrow

private theorem idsBelow_step (hbelow : s.db.IdsBelow) (hstep : s.step e = some s') :
    s'.db.IdsBelow := by
  cases crash_step hstep with
  | tick | beat | begin | claimDead | releaseBegin | release | commitNone | abort => exact hbelow
  | addJob => exact (enqueued_addJob _ _ hbelow).idsBelow
  | claim =>
    refine idsBelow_of_rows hbelow rfl fun id hsome => ?_
    simp only [get?_getJob] at hsome
    split at hsome <;> simpa using hsome
  | complete =>
    refine idsBelow_of_rows hbelow (by simp) fun id hsome => ?_
    rw [get?_completeJob] at hsome
    split at hsome
    · cases hsome
    · exact hsome
  | fail => exact idsBelow_of_rows hbelow (by simp) (by simp [get?_failJob])
  | commit => exact idsBelow_of_rows hbelow rfl (by simp [releaseRows])

private theorem mem_deadPools {sweep : DeadSweep} {skipped : PoolId → Bool} {pool : PoolId}
    (hpool : pool ∈ s.deadPools sweep skipped) : sweep.sweeper ≠ some pool ∧ s.beatFree pool = true ∧
      ∃ seen, s.beats.get? pool = some seen ∧ sweep.stale seen = true := by
  obtain ⟨seen, hseen, hdead⟩ := Table.mem_keys.mp hpool
  simp only [Bool.and_eq_true, decide_eq_true_eq] at hdead
  exact ⟨hdead.1.1.2, hdead.2, seen, hseen, hdead.1.1.1⟩

/-- The pools of a sweep are those it had before the step, or it claims them in the step. -/
private theorem pools_change {before : Option DeadSweep} {sweep : DeadSweep}
    (hchange : SweepChange s e i before sweep) {pool : PoolId} (hpool : pool ∈ sweep.pools) :
    (∃ old, before = some old ∧ pool ∈ old.pools ∧ old.sweeper = sweep.sweeper ∧
        old.stale = sweep.stale ∧ e ≠ .commit i) ∨
      s.beatFree pool = true ∧ (∃ skipped, e = .claimDead i skipped) ∧ sweep.sweeper ≠ some pool ∧
        ∃ seen, s.beats.get? pool = some seen ∧ sweep.stale seen = true := by
  cases hchange with
  | same _ _ _ hcommit => exact .inl ⟨sweep, rfl, hpool, rfl, rfl, hcommit⟩
  | begun he => cases hpool
  | claimed old he hstage =>
    obtain ⟨hsweeper, hfree, hseen⟩ := mem_deadPools hpool
    exact .inr ⟨hfree, ⟨_, he⟩, hsweeper, hseen⟩
  | releasing old he hstage =>
    have hold : pool ∈ old.pools := by simpa [DeadSweep.pools, hstage] using hpool
    exact .inl ⟨old, rfl, hold, rfl, rfl, by simp [he]⟩
  | released old he hstage =>
    have hold : pool ∈ old.pools := by simpa [DeadSweep.pools, hstage] using hpool
    exact .inl ⟨old, rfl, hold, rfl, rfl, by simp [he]⟩

theorem CrashState.Ok.step (hok : s.Ok) (hstep : s.step e = some s') : s'.Ok where
  below := idsBelow_step hok.below hstep
  dead i sweep hi pool hpool := by
    rcases pools_change (sweep_change hstep hi) hpool with
      ⟨old, hold, hmem, hsweeper, hstale, hcommit⟩ | ⟨hfree, ⟨skipped, he⟩, hdead⟩
    · obtain ⟨hne, seen, hseen, hold'⟩ := hok.dead i old hold pool hmem
      exact ⟨hsweeper ▸ hne, seen, (beat_kept hok hstep hold hcommit hmem).trans hseen, hstale ▸ hold'⟩
    · have hchange := beat_change hstep pool
      generalize s'.beats.get? pool = seen' at hchange ⊢
      cases hchange with
      | same => exact hdead
      | beaten he' => simp [he] at he'
      | deleted he' => simp [he] at he'
  apart i j a b hi hj hij pool ha hb := by
    rcases pools_change (sweep_change hstep hi) ha with ⟨old, hold, hmem, -⟩ | ⟨hfree, ⟨skipped, he⟩, -⟩
    · rcases pools_change (sweep_change hstep hj) hb with ⟨old', hold', hmem', -⟩ | ⟨hfree, -⟩
      · exact hok.apart i j old old' hold hold' hij pool hmem hmem'
      · exact not_mem_of_beatFree hfree hold hmem
    · rcases pools_change (sweep_change hstep hj) hb with ⟨old', hold', hmem', -⟩ | ⟨-, ⟨skipped', he'⟩, -⟩
      · exact not_mem_of_beatFree hfree hold' hmem'
      · obtain ⟨rfl, -⟩ := CrashEvent.claimDead.inj (he.symm.trans he')
        exact hij rfl
  rows i sweep x hi hrow := by
    have hchange := sweep_change hstep hi
    generalize hbefore : s.sweeps.get? i = before at hchange
    cases hchange with
    | same _ _ _ hcommit =>
      rw [holder_kept hok hstep hbefore hcommit hrow]
      exact hok.rows i sweep x hbefore hrow
    | begun | claimed | releasing => cases hrow
    | @released old pools snap he hstage =>
      subst he
      have hdb : s'.db = s.db := (uncommitted_step hstep trivial).1
      simp only [DeadSweep.rows, CrashState.releasedRows, Bool.and_eq_true] at hrow
      obtain ⟨pool, hholder, hpool⟩ := (Option.any_eq_true _ _).mp hrow.2
      exact ⟨pool, of_decide_eq_true hpool, hdb ▸ hholder⟩

section
variable {n : ℕ}

private theorem serial_le : h.serial x ≤ (h.note s e s').serial x := by
  simp only [Releases.note]
  split
  · exact Nat.le_succ _
  · exact le_refl _

/-- A lock that was there before the step, by its serial. -/
private theorem same_lock (hchange : HolderChange s e s' x) (hn : n ≤ h.serial x)
    (hheld : s'.db.holder x ≠ none) (hserial : (h.note s e s').serial x = n) :
    s'.db.holder x = s.db.holder x ∧ h.serial x = n := by
  simp only [Releases.note] at hserial
  cases hchange with
  | same hsame =>
    rw [hsame] at hheld
    simp only [hheld, false_and, if_false] at hserial
    exact ⟨hsame, hserial⟩
  | locked he hid hnone hsome =>
    rw [if_pos ⟨hnone, hheld⟩] at hserial
    omega
  | ended hfree hnone => exact absurd hnone hheld
  | released he hi hrow hnone => exact absurd hnone hheld

private theorem asOf_kept (hbegin : ∀ now staleAfter sweeper, e ≠ .begin i now staleAfter sweeper)
    (hrelease : e ≠ .releaseBegin i) : (h.note s e s').asOf i = h.asOf i := by
  cases e with
  | begin j now staleAfter sweeper =>
    have hj : j ≠ i := by
      rintro rfl
      exact hbegin now staleAfter sweeper rfl
    exact if_neg hj
  | releaseBegin j =>
    have hj : j ≠ i := by
      rintro rfl
      exact hrelease rfl
    exact if_neg hj
  | tick | addJob | claim | complete | fail | beat | claimDead | release | commit | abort => rfl

private theorem due_kept {sweep : DeadSweep} (hdue : h.Due s i sweep x)
    (hchange : HolderChange s e s' x) (hasOf : (h.note s e s').asOf i = h.asOf i) :
    (h.note s e s').Due s' i sweep x := by
  unfold Releases.Due at hdue ⊢
  rw [hasOf]
  split at hdue
  · exact hdue
  · exact hdue
  · intro n hn
    obtain ⟨hle, hsnap, hheld⟩ := hdue n hn
    refine ⟨hle.trans serial_le, hsnap, fun hsome hserial => ?_⟩
    obtain ⟨hsame, hserial⟩ := same_lock hchange hle hsome hserial
    rw [hsame] at hsome ⊢
    exact hheld hsome hserial
  · intro n hn
    obtain ⟨hle, hheld⟩ := hdue n hn
    refine ⟨hle.trans serial_le, fun hsome hserial => ?_⟩
    obtain ⟨hsame, hserial⟩ := same_lock hchange hle hsome hserial
    rw [hsame] at hsome
    exact hheld hsome hserial

private theorem due_step (hok : s.Ok) (hdue : ∀ i sweep, s.sweeps.get? i = some sweep →
    ∀ x, h.Due s i sweep x) (hstep : s.step e = some s') {sweep : DeadSweep}
    (hi : s'.sweeps.get? i = some sweep) (x : Lockable) : (h.note s e s').Due s' i sweep x := by
  have hholder := holder_change hok.below hok.rows hstep x
  have hchange := sweep_change hstep hi
  generalize hbefore : s.sweeps.get? i = before at hchange
  cases hchange with
  | same _ hbegin hrelease =>
    exact due_kept (hdue i sweep hbefore x) hholder (asOf_kept hbegin hrelease)
  | begun he =>
    subst he
    simp [Releases.Due, Releases.note]
  | claimed old he hstage =>
    have hold : h.Due s i old x := hdue i old hbefore x
    simp only [Releases.Due, hstage] at hold
    subst he
    exact hold
  | @releasing old pools he hstage =>
    have hold : h.Due s i old x := hdue i old hbefore x
    simp only [Releases.Due, hstage] at hold
    subst he
    have hdb : s'.db = s.db := (uncommitted_step hstep trivial).1
    intro n hn
    simp only [Releases.note, if_true, CrashState.deadLocks, hbefore, Option.any_some, DeadSweep.pools,
      hstage] at hn
    split at hn
    · rename_i hdead
      obtain rfl := Option.some.inj hn
      refine ⟨serial_le, hdead, fun _ _ => ?_⟩
      rw [hdb]
      exact hdead
    · cases hn
  | @released old pools snap he hstage =>
    have hold : h.Due s i old x := hdue i old hbefore x
    simp only [Releases.Due, hstage] at hold
    subst he
    have hdb : s'.db = s.db := (uncommitted_step hstep trivial).1
    intro n hn
    obtain ⟨hle, hsnap, hheld⟩ := hold n hn
    refine ⟨hle.trans serial_le, fun hsome hserial => ?_⟩
    obtain ⟨-, hserial⟩ := same_lock hholder hle hsome hserial
    rw [hdb] at hsome
    simp only [CrashState.releasedRows, hsnap, hheld hsome hserial, Bool.and_self]

theorem Releases.Ok.step (hok : s.Ok) (h_ok : h.Ok s) (hstep : s.step e = some s') :
    (h.note s e s').Ok s' where
  due i sweep hi x := due_step hok h_ok.due hstep hi x
  once x n := by
    cases e with
    | commit i =>
      simp only [Releases.note]
      split
      · rename_i hfreed
        obtain ⟨hheld, -, rfl⟩ := hfreed
        rw [h_ok.current x hheld]
      · exact h_ok.once x n
    | tick | addJob | claim | complete | fail | beat | begin | claimDead | releaseBegin | release
    | abort => exact h_ok.once x n
  later x n hn := by
    have hlater : h.freed x n = 0 := h_ok.later x n (serial_le.trans_lt hn)
    cases e with
    | commit i =>
      have hne : n ≠ h.serial x := (serial_le.trans_lt hn).ne'
      simp only [Releases.note, hne, and_false, if_false]
      exact hlater
    | tick | addJob | claim | complete | fail | beat | begin | claimDead | releaseBegin | release
    | abort => exact hlater
  current x hheld := by
    have hfreed : (h.note s e s').freed x = h.freed x := by
      funext n
      cases e with
      | commit i => simp [Releases.note, hheld]
      | tick | addJob | claim | complete | fail | beat | begin | claimDead | releaseBegin | release
      | abort => rfl
    rw [hfreed]
    simp only [Releases.note]
    split
    · exact h_ok.later x _ (Nat.lt_succ_self _)
    · rename_i hserial
      exact h_ok.current x fun hnone => hserial ⟨hnone, hheld⟩

end

/-! ## Exact release -/

/-- What the commit of a sweep does. -/
structure ReleasedExactly (s s' : CrashState) (h' : Releases) (i : ℕ) (sweep : DeadSweep) : Prop where
  beats : ∀ pool, s'.beats.get? pool = if pool ∈ sweep.pools then none else s.beats.get? pool
  jobs : ∀ id, s'.db.jobs.get? id = s.db.jobs.get? id ∨ ∃ job lock,
    s.db.jobs.get? id = some job ∧ job.lock = some lock ∧ lock.lockedBy ∈ sweep.pools ∧
      s'.db.jobs.get? id = some
        { job with
          lastError := some (releaseError lock.lockedBy)
          runAt := max sweep.now job.runAt + graphileBackoff job.attempts
          lock := none }
  lanes : ∀ q, s'.db.lanes q = s.db.lanes q ∨
    ∃ pool ∈ sweep.pools, s.db.lanes q = some pool ∧ s'.db.lanes q = none
  others : s'.db = { s.db with jobs := s'.db.jobs, lanes := s'.db.lanes }
  /-- No lock that the release statement's snapshot found is left. -/
  complete : ∀ x n, h'.asOf i x = some n → s'.db.holder x ≠ none → h'.serial x ≠ n

private theorem job_releaseRows {now : Time} {pools : List PoolId} {rows : Lockable → Bool} {db : Db}
    (id : JobId) : (releaseRows now pools rows db).jobs.get? id = db.jobs.get? id ∨ ∃ job lock,
      db.jobs.get? id = some job ∧ job.lock = some lock ∧ lock.lockedBy ∈ pools ∧
        (releaseRows now pools rows db).jobs.get? id = some
          { job with
            lastError := some (releaseError lock.lockedBy)
            runAt := max now job.runAt + graphileBackoff job.attempts
            lock := none } := by
  simp only [releaseRows, Table.get?_modify]
  cases db.jobs.get? id with
  | none => exact .inl rfl
  | some job =>
    cases rows (.job id) with
    | false => exact .inl rfl
    | true =>
      cases hlock : job.lock with
      | none => exact .inl (by simp [Job.release, hlock])
      | some lock =>
        cases hpool : decide (lock.lockedBy ∈ pools) with
        | false => exact .inl (by simp [Job.release, hlock, of_decide_eq_false hpool])
        | true =>
          have hpool : lock.lockedBy ∈ pools := of_decide_eq_true hpool
          exact .inr ⟨job, lock, rfl, hlock, hpool, by simp [Job.release, Job.fail, hlock, hpool]⟩

private theorem lane_releaseRows {now : Time} {pools : List PoolId} {rows : Lockable → Bool} {db : Db}
    (q : String) : (releaseRows now pools rows db).lanes q = db.lanes q ∨
      ∃ pool ∈ pools, db.lanes q = some pool ∧ (releaseRows now pools rows db).lanes q = none := by
  simp only [releaseRows]
  cases rows (.lane q) with
  | false => exact .inl rfl
  | true =>
    cases hlane : db.lanes q with
    | none => exact .inl rfl
    | some pool =>
      cases hpool : decide (pool ∈ pools) with
      | false => exact .inl (by simp [Option.filter, hpool])
      | true => exact .inr ⟨pool, of_decide_eq_true hpool, rfl, by simp [Option.filter, hpool]⟩

theorem commit_exact (hok : s.Ok) (h_ok : h.Ok s) {sweep : DeadSweep}
    (hi : s.sweeps.get? i = some sweep) (hstep : s.step (.commit i) = some s') :
    ReleasedExactly s s' (h.note s (.commit i) s') i sweep := by
  have hholder := holder_change hok.below hok.rows hstep
  cases crash_step hstep with
  | commitNone hj hstage =>
    obtain rfl := Option.some.inj (hi.symm.trans hj)
    refine ⟨?_, fun _ => .inl rfl, fun _ => .inl rfl, rfl, fun x n hn => ?_⟩
    · simp [DeadSweep.pools, hstage]
    · have hdue := h_ok.due i _ hi x
      simp only [Releases.Due, hstage] at hdue
      simp [Releases.note, hdue] at hn
  | @commit _ _ pools rows hj hstage =>
    obtain rfl := Option.some.inj (hi.symm.trans hj)
    have hpools : sweep.pools = pools := by simp [DeadSweep.pools, hstage]
    refine ⟨fun pool => ?_, ?_, ?_, rfl, fun x n hn hheld hserial => ?_⟩
    · rw [hpools, Table.get?_filter]
      split
      · rename_i hpool
        simp [hpool]
      · rename_i hpool
        cases s.beats.get? pool with
        | none => rfl
        | some seen => simp [Option.filter, hpool]
    · rw [hpools]
      exact job_releaseRows
    · rw [hpools]
      exact lane_releaseRows
    · have hdue := h_ok.due i _ hi x
      simp only [Releases.Due, hstage] at hdue
      obtain ⟨hle, hrow⟩ := hdue n hn
      obtain ⟨hsame, hserial⟩ := same_lock (hholder x) hle hheld hserial
      rw [hsame] at hheld
      obtain ⟨pool, hpool, hpooled⟩ := hok.rows i sweep x hi (by
        simpa [DeadSweep.rows, hstage] using hrow hheld hserial)
      rw [hpools] at hpool
      simp [holder_releaseRows, hrow hheld hserial, hpooled, hpool] at hsame

theorem crash_ok_reachable {p : CrashState × Releases} (hreach : releases.Reachable p) :
    p.1.Ok ∧ p.2.Ok p.1 := by
  refine hreach.invariant (I := fun p => p.1.Ok ∧ p.2.Ok p.1) ?_ ?_
  · rintro ⟨s, h⟩ ⟨hs, rfl⟩
    obtain rfl : s = CrashState.initial := hs
    refine ⟨⟨?_, ?_, ?_, ?_⟩, ⟨?_, ?_, ?_, ?_⟩⟩
    all_goals simp [CrashState.initial, Releases.start, Db.IdsBelow, Db.initial]
  · rintro ⟨s, h⟩ e ⟨s', h'⟩ - ⟨hok, h_ok⟩ - hstep
    obtain ⟨hstep, hnote⟩ := TransitionSystem.observe_step_iff.mp hstep
    obtain rfl : h' = h.note s e s' := hnote
    exact ⟨hok.step hstep, h_ok.step hok hstep⟩

/-- A sweep claims only stale pools, its commit releases their locks and nothing else, and until
then it changes nothing. No lock is released twice. -/
theorem crash_release_exact {p : CrashState × Releases} (hreach : releases.Reachable p) :
    (∀ i sweep, p.1.sweeps.get? i = some sweep → ∀ pool ∈ sweep.pools, sweep.sweeper ≠ some pool ∧
      ∃ seen, p.1.beats.get? pool = some seen ∧ sweep.stale seen = true) ∧
    (∀ i sweep s', p.1.sweeps.get? i = some sweep → p.1.step (.commit i) = some s' →
      ReleasedExactly p.1 s' (p.2.note p.1 (.commit i) s') i sweep) ∧
    (∀ e s', e.uncommitted → p.1.step e = some s' → s'.db = p.1.db ∧ s'.beats = p.1.beats) ∧
    ∀ x n, p.2.freed x n ≤ 1 := by
  obtain ⟨hok, h_ok⟩ := crash_ok_reachable hreach
  refine ⟨hok.dead, ?_, ?_, h_ok.once⟩
  · intro i sweep s' hi hstep
    exact commit_exact hok h_ok hi hstep
  · intro e s' he hstep
    exact uncommitted_step hstep he

/-! ## A worker that crashes -/

/-- A pool dies with a job; another pool's sweep releases it. -/
def crashTrace : List CrashEvent :=
  [.addJob 0 ⟨"import", .null, some "lane", none, none, none, none, none, .replace⟩, .beat 0 "p",
    .claim 0 "p" 1, .tick 400000000, .beat 400000000 "q", .begin 0 400000000 300000 (some "q"),
    .claimDead 0 fun _ => false, .releaseBegin 0, .release 0]

theorem crash_release_exact_trace : ∃ (p : CrashState × Releases) (sweep : DeadSweep)
    (s' : CrashState), p.1.sweeps.get? 0 = some sweep ∧ p.1.db.holder (.job 1) = some "p" ∧ p.2.asOf 0 (.job 1) = some 1 ∧
    p.1.step (.commit 0) = some s' ∧ ReleasedExactly p.1 s' (p.2.note p.1 (.commit 0) s') 0 sweep ∧
    s'.db.holder (.job 1) = none ∧ s'.db.holder (.lane "lane") = none := by
  have hinit : releases.Init (CrashState.initial, .start) := ⟨rfl, rfl⟩
  obtain ⟨p, hreach, hp⟩ := TransitionSystem.exists_reachable_of_run crashTrace
    (fun (p : CrashState × Releases) => (p.1.sweeps.get? 0).isSome && p.1.db.holder (.job 1) = some "p" &&
      p.2.asOf 0 (.job 1) = some 1 && (p.1.step (.commit 0)).any fun s' =>
        s'.db.holder (.job 1) = none && s'.db.holder (.lane "lane") = none) hinit (by decide)
  simp only [Bool.and_eq_true, decide_eq_true_eq, Option.any_eq_true] at hp
  obtain ⟨⟨⟨hsome, hheld⟩, hasOf⟩, s', hstep, hjob, hlane⟩ := hp
  obtain ⟨sweep, hi⟩ := Option.isSome_iff_exists.mp hsome
  exact ⟨p, sweep, s', hi, hheld, hasOf, hstep, (crash_release_exact hreach).2.1 0 sweep s' hi hstep,
    hjob, hlane⟩

end BetterGraphileWorker
