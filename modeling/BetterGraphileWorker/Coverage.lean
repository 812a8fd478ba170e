-- SUMMARY: Crash recovery's coverage: runner pools, their first heartbeat, and the handlers that wait for it.
import BetterGraphileWorker.CrashRelease

/-!
# Coverage

A started worker registers each runner pool with a heartbeat row. executeTask waits until the
first heartbeat of the worker's current pool has settled, then runs the handler.
-/

namespace BetterGraphileWorker

/-! ## Runner pools and their tasks -/

/-- A pool that startRunner created, with startMaintenance. -/
structure RunnerPool where
  worker : ℕ
  /-- A heartbeat of the pool was recorded. -/
  beaten : Bool
  /-- `ready` has settled. -/
  ready : Bool
  /-- It settled on a failed heartbeat: `beatSafely` only logs it. -/
  failed : Bool

inductive TaskStage where
  /-- Locked, perhaps in the local queue. -/
  | claimed
  /-- executeTask awaits `ready` of this pool. -/
  | awaiting (pool : PoolId)
  | running
deriving DecidableEq

structure TaskRun where
  pool : PoolId
  id : JobId
  stage : TaskStage

structure CoverState where
  crash : CrashState
  pools : Table PoolId RunnerPool
  /-- The variable `maintenance` of each worker. -/
  maintenance : ℕ → Option PoolId
  tasks : Table ℕ TaskRun
  nextTask : ℕ

def CoverState.initial : CoverState := ⟨CrashState.initial, ∅, fun _ => none, ∅, 0⟩

inductive CoverEvent where
  | crash (e : CrashEvent)
  /-- `pool:create`, at a start or a restart. -/
  | create (worker : ℕ) (pool : PoolId)
  | ready (pool : PoolId) (failed : Bool)
  /-- executeTask begins. -/
  | enter (k : ℕ)
  /-- It runs the handler. -/
  | handle (k : ℕ)
  | finish (k : ℕ)

namespace CoverState

variable (s : CoverState)

/-- Bookkeeping of heartbeats and claims. -/
def track (e : CrashEvent) (crash : CrashState) : CoverState :=
  match e with
  | .beat _ pool => { s with crash, pools := s.pools.update pool ({ · with beaten := true }) }
  | .claim _ pool id =>
    if (s.pools.get? pool).isSome then
      { s with
        crash
        tasks := s.tasks.insert s.nextTask ⟨pool, id, .claimed⟩
        nextTask := s.nextTask + 1 }
    else { s with crash }
  | _ => { s with crash }

/-- A runner's promise settles only after its maintenance stopped, and that awaits `ready`. -/
def create (worker : ℕ) (pool : PoolId) : Option CoverState :=
  if s.pools.get? pool = none ∧ ((s.maintenance worker).all fun old =>
      (s.pools.get? old).any RunnerPool.ready) then
    some { s with
      pools := s.pools.insert pool ⟨worker, false, false, false⟩
      maintenance := fun w => if w = worker then some pool else s.maintenance w }
  else none

def settleReady (pool : PoolId) (failed : Bool) : Option CoverState :=
  match s.pools.get? pool with
  | some row =>
    if row.ready = false ∧ (failed || row.beaten) then
      some { s with pools := s.pools.insert pool { row with ready := true, failed } }
    else none
  | none => none

/-- `await runtime.heartbeatReady?.()` -/
def enter (k : ℕ) : Option CoverState :=
  match s.tasks.get? k with
  | some task =>
    match task.stage, s.pools.get? task.pool with
    | .claimed, some row =>
      let stage := ((s.maintenance row.worker).map TaskStage.awaiting).getD .running
      some { s with tasks := s.tasks.insert k { task with stage } }
    | _, _ => none
  | none => none

def handle (k : ℕ) : Option CoverState :=
  match s.tasks.get? k with
  | some task =>
    match task.stage with
    | .awaiting pool =>
      if (s.pools.get? pool).any RunnerPool.ready then
        some { s with tasks := s.tasks.insert k { task with stage := .running } }
      else none
    | _ => none
  | none => none

def step : CoverEvent → Option CoverState
  | .crash e => (s.crash.step e).map (s.track e)
  | .create worker pool => s.create worker pool
  | .ready pool failed => s.settleReady pool failed
  | .enter k => s.enter k
  | .handle k => s.handle k
  | .finish k => some { s with tasks := s.tasks.erase k }

/-- A handler runs for a job that its pool has locked. -/
def RunsLocked (task : TaskRun) : Prop :=
  (∃ k, s.tasks.get? k = some task) ∧ task.stage = .running ∧
    s.crash.db.holder (.job task.id) = some task.pool

end CoverState

def coverage : TransitionSystem CoverState CoverEvent where
  Init s := s = CoverState.initial
  step s e := s.step e

/-! ## The history of sweeps and heartbeats -/

structure Cover where
  locks : Releases
  /-- A committed sweep deleted the heartbeat row, and no heartbeat was recorded since. -/
  gone : PoolId → Bool
  /-- The lock is newer than the release statement's snapshot of the sweep that deleted its pool's
  heartbeat row, and no heartbeat of the pool was recorded since. -/
  late : Lockable → Bool

def Cover.start : Cover := ⟨.start, fun _ => false, fun _ => false⟩

/-- The job or lane is locked by a pool of the sweep, in a lock that its release statement's
snapshot did not find. -/
def Releases.missed (h : Releases) (s : CrashState) (i : ℕ) (x : Lockable) : Bool :=
  h.asOf i x ≠ some (h.serial x) &&
    (s.sweeps.get? i).any fun sweep => (s.db.holder x).any (· ∈ sweep.pools)

def Cover.note (s : CoverState) (e : CoverEvent) (s' : CoverState) (h : Cover) : Cover where
  locks :=
    match e with
    | .crash e => h.locks.note s.crash e s'.crash
    | _ => h.locks
  gone pool :=
    match e with
    | .crash (.beat _ pool') => if pool' = pool then false else h.gone pool
    | .crash (.commit i) =>
      h.gone pool || (s.crash.sweeps.get? i).any fun sweep => pool ∈ sweep.pools
    | _ => h.gone pool
  late x :=
    match e with
    | .crash (.beat _ pool) => if s.crash.db.holder x = some pool then false else h.late x
    | .crash (.commit i) => h.late x || h.locks.missed s.crash i x
    | .crash (.claim _ pool _) =>
      if s.crash.db.holder x = none ∧ s'.crash.db.holder x ≠ none then h.gone pool else h.late x
    | _ => h.late x

/-- The system with the history of its locks, sweeps and heartbeats. -/
def covers : TransitionSystem (CoverState × Cover) CoverEvent :=
  coverage.observe .start Cover.note

/-! ## What a step does to pools and tasks -/

variable {s s' : CoverState} {e : CoverEvent} {h : Cover} {k : ℕ} {pool : PoolId} {x : Lockable}

inductive PoolChange (s : CoverState) (e : CoverEvent) (pool : PoolId) : Option RunnerPool → Prop where
  | same : PoolChange s e pool (s.pools.get? pool)
  | beaten {now : Time} {row : RunnerPool} (he : e = .crash (.beat now pool))
      (hrow : s.pools.get? pool = some row) : PoolChange s e pool (some { row with beaten := true })
  | created {worker : ℕ} (he : e = .create worker pool) (hnew : s.pools.get? pool = none) :
      PoolChange s e pool (some ⟨worker, false, false, false⟩)
  | ready {row : RunnerPool} {failed : Bool} (hrow : s.pools.get? pool = some row)
      (hfirst : failed = true ∨ row.beaten = true) :
      PoolChange s e pool (some { row with ready := true, failed })

inductive TaskChange (s : CoverState) (e : CoverEvent) (k : ℕ) : TaskRun → Prop where
  | same {task : TaskRun} (htask : s.tasks.get? k = some task) : TaskChange s e k task
  | claimed {pool : PoolId} {id : JobId} (hpool : (s.pools.get? pool).isSome) :
      TaskChange s e k ⟨pool, id, .claimed⟩
  | entered {task : TaskRun} {row : RunnerPool} (htask : s.tasks.get? k = some task)
      (hrow : s.pools.get? task.pool = some row) :
      TaskChange s e k
        { task with stage := ((s.maintenance row.worker).map TaskStage.awaiting).getD .running }
  | handled {task : TaskRun} {pool : PoolId} (he : e = .handle k) (htask : s.tasks.get? k = some task)
      (hstage : task.stage = .awaiting pool) (hready : (s.pools.get? pool).any RunnerPool.ready = true) :
      TaskChange s e k { task with stage := .running }

/-- Every step with its guards. -/
inductive CoverStep (s : CoverState) : CoverEvent → CoverState → Prop where
  | crash {e : CrashEvent} {crash : CrashState} (hstep : s.crash.step e = some crash) :
      CoverStep s (.crash e) (s.track e crash)
  | create {worker : ℕ} {pool : PoolId} (hnew : s.pools.get? pool = none)
      (hold : ∀ old, s.maintenance worker = some old →
        (s.pools.get? old).any RunnerPool.ready = true) :
      CoverStep s (.create worker pool)
        { s with
          pools := s.pools.insert pool ⟨worker, false, false, false⟩
          maintenance := fun w => if w = worker then some pool else s.maintenance w }
  | ready {pool : PoolId} {failed : Bool} {row : RunnerPool} (hrow : s.pools.get? pool = some row)
      (hfirst : failed = true ∨ row.beaten = true) :
      CoverStep s (.ready pool failed)
        { s with pools := s.pools.insert pool { row with ready := true, failed } }
  | enter {k : ℕ} {task : TaskRun} {row : RunnerPool} (htask : s.tasks.get? k = some task)
      (hrow : s.pools.get? task.pool = some row) :
      CoverStep s (.enter k)
        { s with
          tasks := s.tasks.insert k
            { task with stage := ((s.maintenance row.worker).map TaskStage.awaiting).getD .running } }
  | handle {k : ℕ} {task : TaskRun} {pool : PoolId} (htask : s.tasks.get? k = some task)
      (hstage : task.stage = .awaiting pool) (hready : (s.pools.get? pool).any RunnerPool.ready = true) :
      CoverStep s (.handle k) { s with tasks := s.tasks.insert k { task with stage := .running } }
  | finish {k : ℕ} : CoverStep s (.finish k) { s with tasks := s.tasks.erase k }

theorem cover_step (hstep : s.step e = some s') : CoverStep s e s' := by
  cases e with
  | crash e =>
    obtain ⟨crash, hcrash, rfl⟩ := Option.map_eq_some_iff.mp hstep
    exact .crash hcrash
  | create worker pool =>
    simp only [CoverState.step, CoverState.create] at hstep
    split at hstep
    · rename_i hguard
      obtain rfl := Option.some.inj hstep
      refine .create hguard.1 fun old hold => ?_
      simpa [hold] using hguard.2
    · cases hstep
  | ready pool failed =>
    simp only [CoverState.step, CoverState.settleReady] at hstep
    split at hstep
    · rename_i row hrow
      split at hstep
      · rename_i hguard
        obtain rfl := Option.some.inj hstep
        exact .ready hrow (by simpa using hguard.2)
      · cases hstep
    · cases hstep
  | enter k =>
    simp only [CoverState.step, CoverState.enter] at hstep
    split at hstep
    · rename_i task htask
      split at hstep
      · rename_i row hstage hrow
        obtain rfl := Option.some.inj hstep
        exact .enter htask hrow
      · cases hstep
    · cases hstep
  | handle k =>
    simp only [CoverState.step, CoverState.handle] at hstep
    split at hstep
    · rename_i task htask
      split at hstep
      · rename_i pool hstage
        split at hstep
        · rename_i hready
          obtain rfl := Option.some.inj hstep
          exact .handle htask hstage hready
        · cases hstep
      · cases hstep
    · cases hstep
  | finish k =>
    obtain rfl := Option.some.inj hstep
    exact .finish

@[simp] theorem track_crash {e : CrashEvent} {crash : CrashState} : (s.track e crash).crash = crash := by
  unfold CoverState.track
  split
  · rfl
  · split <;> rfl
  · rfl

@[simp] theorem track_maintenance {e : CrashEvent} {crash : CrashState} :
    (s.track e crash).maintenance = s.maintenance := by
  unfold CoverState.track
  split
  · rfl
  · split <;> rfl
  · rfl

theorem pool_change (hstep : s.step e = some s') (pool : PoolId) :
    PoolChange s e pool (s'.pools.get? pool) := by
  cases cover_step hstep with
  | @crash e crash hcrash =>
    cases e with
    | beat now pool' =>
      simp only [CoverState.track, Table.get?_update]
      split
      · rename_i hpool
        subst hpool
        cases hrow : s.pools.get? pool with
        | none =>
          rw [Option.map_none, ← hrow]
          exact .same
        | some row => exact .beaten rfl hrow
      · exact .same
    | claim now pool' id =>
      simp only [CoverState.track]
      split <;> exact .same
    | tick | addJob | complete | fail | begin | claimDead | releaseBegin | release | commit | abort =>
      exact .same
  | @create worker pool' hnew hold =>
    simp only [Table.get?_insert]
    split
    · rename_i hpool
      subst hpool
      exact .created rfl hnew
    · exact .same
  | @ready pool' failed row hrow hfirst =>
    simp only [Table.get?_insert]
    split
    · rename_i hpool
      subst hpool
      exact .ready hrow hfirst
    · exact .same
  | enter | handle | finish => exact .same

theorem task_change (hstep : s.step e = some s') {task : TaskRun} (htask : s'.tasks.get? k = some task) :
    TaskChange s e k task := by
  cases cover_step hstep with
  | @crash e crash hcrash =>
    cases e with
    | claim now pool id =>
      simp only [CoverState.track] at htask
      split at htask
      · rename_i hpool
        simp only [Table.get?_insert] at htask
        split at htask
        · obtain rfl := Option.some.inj htask
          exact .claimed hpool
        · exact .same htask
      · exact .same htask
    | tick | addJob | beat | complete | fail | begin | claimDead | releaseBegin | release | commit
    | abort => exact .same htask
  | create | ready => exact .same htask
  | @enter k' task' row htask' hrow =>
    simp only [Table.get?_insert] at htask
    split at htask
    · rename_i hk
      subst hk
      obtain rfl := Option.some.inj htask
      exact .entered htask' hrow
    · exact .same htask
  | @handle k' task' pool htask' hstage hready =>
    simp only [Table.get?_insert] at htask
    split at htask
    · rename_i hk
      subst hk
      obtain rfl := Option.some.inj htask
      exact .handled rfl htask' hstage hready
    · exact .same htask
  | finish =>
    simp only [Table.get?_erase] at htask
    split at htask
    · cases htask
    · exact .same htask

/-! ## What a run keeps -/

/-- A handler starts only if its pool's first heartbeat did not fail or one was recorded since, and
its lock is not newer than the snapshot of the sweep that deleted its pool's row; such a sweep
commits only while no handler runs under a lock that its snapshot missed. The last case is a pool
that locks a job again while its earlier handler for it still runs. -/
def Cover.allowed (s : CoverState) (h : Cover) : CoverEvent → Bool
  | .handle k => (s.tasks.get? k).all fun task =>
      s.crash.db.holder (.job task.id) ≠ some task.pool ||
        !((s.pools.get? task.pool).any fun row => row.failed && !row.beaten) && !h.late (.job task.id)
  | .crash (.commit i) => !s.tasks.any fun _ task =>
      task.stage = .running && s.crash.db.holder (.job task.id) = some task.pool &&
        h.locks.missed s.crash i (.job task.id)
  | .crash (.claim _ pool id) => !s.tasks.any fun _ task =>
      task.stage = .running && task.pool = pool && task.id = id &&
        (h.gone pool || !(s.pools.get? pool).any RunnerPool.beaten)
  | _ => true

structure Cover.Ok (s : CoverState) (h : Cover) : Prop where
  crash : s.crash.Ok
  locks : h.locks.Ok s.crash
  current : ∀ pool row, s.pools.get? pool = some row →
    ∃ q, s.maintenance row.worker = some q ∧ (q = pool ∨ row.ready = true)
  first : ∀ pool row, s.pools.get? pool = some row → row.ready = true →
    row.failed = true ∨ row.beaten = true
  beaten : ∀ pool row, s.pools.get? pool = some row → row.beaten = true →
    (s.crash.beats.get? pool).isSome ∨ h.gone pool = true
  late : ∀ pool x, h.gone pool = true → s.crash.db.holder x = some pool → h.late x = true
  awaits : ∀ k task, s.tasks.get? k = some task → ∀ q, task.stage = .awaiting q →
    q = task.pool ∨ (s.pools.get? task.pool).any RunnerPool.ready = true
  running : ∀ task, s.RunsLocked task →
    (s.pools.get? task.pool).any RunnerPool.beaten = true ∧ h.gone task.pool = false

section
variable (hok : h.Ok s) (hstep : s.step e = some s')
include hok hstep

private theorem crash_ok : s'.crash.Ok ∧ (h.note s e s').locks.Ok s'.crash := by
  cases cover_step hstep with
  | crash hcrash =>
    rw [track_crash]
    exact ⟨hok.crash.step hcrash, by simpa [Cover.note] using hok.locks.step hok.crash hcrash⟩
  | create | ready | enter | handle | finish => exact ⟨hok.crash, hok.locks⟩

end

private theorem ready_kept (hstep : s.step e = some s')
    (hready : (s.pools.get? pool).any RunnerPool.ready = true) :
    (s'.pools.get? pool).any RunnerPool.ready = true := by
  have hchange := pool_change hstep pool
  generalize s'.pools.get? pool = row' at hchange ⊢
  cases hchange with
  | same => exact hready
  | beaten he hrow => simpa [hrow] using hready
  | created he hnew => simp [hnew] at hready
  | ready hrow hfirst => rfl

private theorem beaten_kept (hstep : s.step e = some s')
    (hbeaten : (s.pools.get? pool).any RunnerPool.beaten = true) :
    (s'.pools.get? pool).any RunnerPool.beaten = true := by
  have hchange := pool_change hstep pool
  generalize s'.pools.get? pool = row' at hchange ⊢
  cases hchange with
  | same => exact hbeaten
  | beaten => rfl
  | created he hnew => simp [hnew] at hbeaten
  | ready hrow hfirst => simpa [hrow] using hbeaten

private theorem maintenance_change (hstep : s.step e = some s') (worker : ℕ) :
    s'.maintenance worker = s.maintenance worker ∨ ∃ pool, e = .create worker pool ∧
      s'.maintenance worker = some pool ∧ ∀ old, s.maintenance worker = some old →
        (s.pools.get? old).any RunnerPool.ready = true := by
  cases cover_step hstep with
  | crash => exact .inl (by simp)
  | @create worker' pool hnew hold =>
    simp only
    split
    · rename_i hworker
      subst hworker
      exact .inr ⟨pool, rfl, rfl, hold⟩
    · exact .inl rfl
  | ready | enter | handle | finish => exact .inl rfl

private theorem current_step (hok : h.Ok s) (hstep : s.step e = some s') {row : RunnerPool}
    (hrow : s'.pools.get? pool = some row) :
    ∃ q, s'.maintenance row.worker = some q ∧ (q = pool ∨ row.ready = true) := by
  have hold : ∀ old, s.pools.get? pool = some old → old.worker = row.worker →
      (old.ready = true → row.ready = true) →
      ∃ q, s'.maintenance row.worker = some q ∧ (q = pool ∨ row.ready = true) := by
    intro old hget hworker hready
    obtain ⟨q, hq, hor⟩ := hok.current pool old hget
    rw [hworker] at hq
    rcases maintenance_change hstep row.worker with hsame | ⟨q', he, hq', hall⟩
    · exact ⟨q, hsame.trans hq, hor.imp_right hready⟩
    · refine ⟨q', hq', .inr (hready ?_)⟩
      rcases hor with rfl | hready'
      · simpa [hget] using hall q hq
      · exact hready'
  have hchange := pool_change hstep pool
  rw [hrow] at hchange
  generalize hafter : some row = after at hchange
  cases hchange with
  | same => exact hold row hafter.symm rfl id
  | beaten he hget =>
    obtain rfl := Option.some.inj hafter
    exact hold _ hget rfl id
  | created he hnew =>
    obtain rfl := Option.some.inj hafter
    subst he
    cases cover_step hstep with
    | create => exact ⟨pool, if_pos rfl, .inl rfl⟩
  | ready hget hfirst =>
    obtain rfl := Option.some.inj hafter
    exact hold _ hget rfl fun _ => rfl

private theorem first_step (hok : h.Ok s) (hstep : s.step e = some s') {row : RunnerPool}
    (hrow : s'.pools.get? pool = some row) (hready : row.ready = true) :
    row.failed = true ∨ row.beaten = true := by
  have hchange := pool_change hstep pool
  rw [hrow] at hchange
  generalize hafter : some row = after at hchange
  cases hchange with
  | same => exact hok.first pool row hafter.symm hready
  | beaten he hget =>
    obtain rfl := Option.some.inj hafter
    exact .inr rfl
  | created he hnew =>
    obtain rfl := Option.some.inj hafter
    cases hready
  | ready hget hfirst =>
    obtain rfl := Option.some.inj hafter
    exact hfirst

private theorem beat_recorded {now : Time} (hstep : s.step (.crash (.beat now pool)) = some s') :
    s'.crash.beats.get? pool = some now := by
  cases cover_step hstep with
  | crash hcrash =>
    cases crash_step hcrash with
    | beat => simp

/-- Only its own heartbeat clears `gone`. -/
private theorem gone_kept (e : CoverEvent) (s' : CoverState) (hgone : h.gone pool = true) :
    (h.note s e s').gone pool = true ∨ ∃ now, e = .crash (.beat now pool) := by
  simp only [Cover.note]
  split
  · rename_i now pool'
    split
    · rename_i hpool
      exact .inr ⟨now, by rw [hpool]⟩
    · exact .inl hgone
  · exact .inl (by simp [hgone])
  · exact .inl hgone

/-- A recorded heartbeat row is there until a committed sweep deletes it. -/
private theorem recorded_step (hstep : s.step e = some s')
    (hrecorded : (s.crash.beats.get? pool).isSome ∨ h.gone pool = true) :
    (s'.crash.beats.get? pool).isSome ∨ (h.note s e s').gone pool = true := by
  rcases hrecorded with hsome | hgone
  · cases cover_step hstep with
    | @crash e crash hcrash =>
      rw [track_crash]
      have hchange := beat_change hcrash pool
      generalize crash.beats.get? pool = seen at hchange ⊢
      cases hchange with
      | same => exact .inl hsome
      | beaten => exact .inl rfl
      | deleted he hi hpool => exact .inr (by simp [Cover.note, he, hi, hpool])
    | create | ready | enter | handle | finish => exact .inl hsome
  · rcases gone_kept (s := s) e s' hgone with hgone' | ⟨now, rfl⟩
    · exact .inr hgone'
    · exact .inl (by simp [beat_recorded hstep])

private theorem beaten_step (hok : h.Ok s) (hstep : s.step e = some s') {row : RunnerPool}
    (hrow : s'.pools.get? pool = some row) (hbeaten : row.beaten = true) :
    (s'.crash.beats.get? pool).isSome ∨ (h.note s e s').gone pool = true := by
  have hchange := pool_change hstep pool
  rw [hrow] at hchange
  generalize hafter : some row = after at hchange
  cases hchange with
  | same => exact recorded_step hstep (hok.beaten pool row hafter.symm hbeaten)
  | beaten he hget =>
    subst he
    exact .inl (by simp [beat_recorded hstep])
  | created he hnew =>
    obtain rfl := Option.some.inj hafter
    cases hbeaten
  | ready hget hfirst =>
    obtain rfl := Option.some.inj hafter
    exact recorded_step hstep (hok.beaten pool _ hget hbeaten)

/-- What a committed sweep left locked, its release statement's snapshot did not find. -/
private theorem missed_of_commit (hok : h.Ok s) {i : ℕ} {crash : CrashState}
    (hcrash : s.crash.step (.commit i) = some crash) {sweep : DeadSweep}
    (hi : s.crash.sweeps.get? i = some sweep) (hpool : pool ∈ sweep.pools)
    (hheld : s.crash.db.holder x = some pool) (hkept : crash.db.holder x = some pool) :
    h.locks.missed s.crash i x = true := by
  have hexact := commit_exact hok.crash hok.locks hi hcrash
  have hserial : (h.locks.note s.crash (.commit i) crash).serial x = h.locks.serial x := by
    simp [Releases.note, hheld]
  have hasOf : h.locks.asOf i x ≠ some (h.locks.serial x) := by
    intro hasOf
    exact hexact.complete x _ hasOf (by simp [hkept]) hserial
  simp [Releases.missed, hasOf, hi, hheld, hpool]

private theorem late_step (hok : h.Ok s) (hstep : s.step e = some s')
    (hgone : (h.note s e s').gone pool = true) (hheld : s'.crash.db.holder x = some pool) :
    (h.note s e s').late x = true := by
  cases cover_step hstep with
  | create | ready | enter | handle | finish => exact hok.late pool x hgone hheld
  | @crash e crash hcrash =>
    rw [track_crash] at hheld
    cases holder_change hok.crash.below hok.crash.rows hcrash x with
    | same hsame =>
      have hbefore : s.crash.db.holder x = some pool := hsame.symm.trans hheld
      cases e with
      | beat now pool' =>
        simp only [Cover.note] at hgone ⊢
        split at hgone
        · cases hgone
        · rename_i hpool
          rw [if_neg (by simpa [hbefore] using Ne.symm hpool)]
          exact hok.late pool x hgone hbefore
      | commit i =>
        simp only [Cover.note, Bool.or_eq_true] at hgone ⊢
        rcases hgone with hgone | hswept
        · exact .inl (hok.late pool x hgone hbefore)
        · obtain ⟨sweep, hi, hpool⟩ := (Option.any_eq_true _ _).mp hswept
          exact .inr (missed_of_commit hok hcrash hi (of_decide_eq_true hpool) hbefore hheld)
      | claim now pool' id =>
        simp only [Cover.note]
        rw [if_neg (by simp [hbefore])]
        exact hok.late pool x hgone hbefore
      | tick | addJob | complete | fail | begin | claimDead | releaseBegin | release | abort =>
        exact hok.late pool x hgone hbefore
    | locked he hid hnone hsome =>
      subst he
      obtain rfl := Option.some.inj (hsome.symm.trans hheld)
      simp only [Cover.note]
      rw [if_pos ⟨hnone, by simp [hsome]⟩]
      exact hgone
    | ended hfree hnone => simp [hnone] at hheld
    | released he hi hrow hnone => simp [hnone] at hheld

private theorem awaits_step (hok : h.Ok s) (hstep : s.step e = some s') {task : TaskRun}
    (htask : s'.tasks.get? k = some task) {q : PoolId} (hstage : task.stage = .awaiting q) :
    q = task.pool ∨ (s'.pools.get? task.pool).any RunnerPool.ready = true := by
  cases task_change hstep htask with
  | same hget => exact (hok.awaits k _ hget q hstage).imp_right (ready_kept hstep)
  | claimed => cases hstage
  | @entered task row hget hrow =>
    obtain ⟨q', hq', hor⟩ := hok.current _ row hrow
    simp only [hq', Option.map_some, Option.getD_some, TaskStage.awaiting.injEq] at hstage
    subst hstage
    exact hor.imp_right fun hready => ready_kept hstep (by simpa [hrow] using hready)
  | handled => cases hstage

section
variable {task : TaskRun}

/-- A handler that runs on, under the lock it had before the step or one that the step takes. -/
private theorem running_kept (hok : h.Ok s) (hallowed : h.allowed s e = true)
    (hstep : s.step e = some s') (htask : s.tasks.get? k = some task)
    (hstage : task.stage = .running) (hheld : s'.crash.db.holder (.job task.id) = some task.pool) :
    (s'.pools.get? task.pool).any RunnerPool.beaten = true ∧
      (h.note s e s').gone task.pool = false := by
  cases cover_step hstep with
  | create | ready | enter | handle | finish =>
    obtain ⟨hbeaten, hgone⟩ := hok.running task ⟨⟨k, htask⟩, hstage, hheld⟩
    exact ⟨beaten_kept hstep hbeaten, hgone⟩
  | @crash e crash hcrash =>
    rw [track_crash] at hheld
    cases holder_change hok.crash.below hok.crash.rows hcrash (.job task.id) with
    | same hsame =>
      have hbefore : s.crash.db.holder (.job task.id) = some task.pool := hsame.symm.trans hheld
      obtain ⟨hbeaten, hgone⟩ := hok.running task ⟨⟨k, htask⟩, hstage, hbefore⟩
      refine ⟨beaten_kept hstep hbeaten, ?_⟩
      cases e with
      | beat now pool' => simp [Cover.note, hgone]
      | commit i =>
        simp only [Cover.note, hgone, Bool.false_or]
        cases hswept : (s.crash.sweeps.get? i).any fun sweep => task.pool ∈ sweep.pools with
        | false => rfl
        | true =>
          obtain ⟨sweep, hi, hpool⟩ := (Option.any_eq_true _ _).mp hswept
          have hmissed := missed_of_commit hok hcrash hi (of_decide_eq_true hpool) hbefore hheld
          simp only [Cover.allowed, Bool.not_eq_true', Table.any_eq_false_iff] at hallowed
          simpa [hstage, hbefore, hmissed] using hallowed k task htask
      | tick | addJob | claim | complete | fail | begin | claimDead | releaseBegin | release | abort =>
        exact hgone
    | @locked now pool id he hid hnone hsome =>
      subst he
      obtain rfl := Option.some.inj (hsome.symm.trans hheld)
      simp only [Cover.allowed, Bool.not_eq_true', Table.any_eq_false_iff] at hallowed
      have hfree := hallowed k task htask
      simp only [hstage, hid task.id rfl, decide_true, Bool.true_and, Bool.or_eq_false_iff,
        Bool.not_eq_false'] at hfree
      exact ⟨beaten_kept hstep hfree.2, hfree.1⟩
    | ended hfree hnone => simp [hnone] at hheld
    | released he hi hrow hnone => simp [hnone] at hheld

private theorem running_step (hok : h.Ok s) (hallowed : h.allowed s e = true)
    (hstep : s.step e = some s') (hruns : s'.RunsLocked task) :
    (s'.pools.get? task.pool).any RunnerPool.beaten = true ∧
      (h.note s e s').gone task.pool = false := by
  obtain ⟨⟨k, htask⟩, hstage, hheld⟩ := hruns
  cases task_change hstep htask with
  | same hget => exact running_kept hok hallowed hstep hget hstage hheld
  | claimed => cases hstage
  | @entered task row hget hrow =>
    obtain ⟨q, hq, -⟩ := hok.current _ row hrow
    simp [hq] at hstage
  | @handled task pool he hget hawaits hready =>
    subst he
    cases cover_step hstep with
    | handle =>
      have hown : (s.pools.get? task.pool).any RunnerPool.ready = true := by
        rcases hok.awaits k task hget pool hawaits with rfl | hready'
        · exact hready
        · exact hready'
      obtain ⟨row, hrow, hready'⟩ := (Option.any_eq_true _ _).mp hown
      have hheld : s.crash.db.holder (.job task.id) = some task.pool := hheld
      simp only [Cover.allowed, hget, Option.all_some, hheld, hrow, Option.any_some, ne_eq,
        not_true_eq_false, decide_false, Bool.false_or, Bool.and_eq_true, Bool.not_eq_true',
        Bool.and_eq_false_iff, Bool.not_eq_false'] at hallowed
      obtain ⟨hfirst, hlate⟩ := hallowed
      have hbeaten : row.beaten = true := by
        rcases hok.first _ row hrow hready' with hfailed | hbeaten
        · simpa [hfailed] using hfirst
        · exact hbeaten
      refine ⟨by simp [hrow, hbeaten], ?_⟩
      cases hgone : h.gone task.pool with
      | false => exact hgone
      | true => simp [hok.late _ _ hgone hheld] at hlate

end

theorem Cover.Ok.step (hok : h.Ok s) (hallowed : h.allowed s e = true) (hstep : s.step e = some s') :
    (h.note s e s').Ok s' where
  crash := (crash_ok hok hstep).1
  locks := (crash_ok hok hstep).2
  current _ _ hrow := current_step hok hstep hrow
  first _ _ hrow hready := first_step hok hstep hrow hready
  beaten _ _ hrow hbeaten := beaten_step hok hstep hrow hbeaten
  late _ _ hgone hheld := late_step hok hstep hgone hheld
  awaits _ _ htask _ hstage := awaits_step hok hstep htask hstage
  running _ hruns := running_step hok hallowed hstep hruns

/-! ## Covered handlers -/

private theorem ok_reachable {q : CoverState × Cover}
    (hreach : covers.ReachableWith (fun q e => q.2.allowed q.1 e = true) q) : q.2.Ok q.1 := by
  refine hreach.invariant (I := fun q => q.2.Ok q.1) ?_ ?_
  · rintro ⟨s, h⟩ ⟨hs, rfl⟩
    obtain rfl : s = CoverState.initial := hs
    have hcrash : releases.Reachable (CrashState.initial, .start) := .init ⟨rfl, rfl⟩
    obtain ⟨hok, hlocks⟩ := crash_ok_reachable hcrash
    refine ⟨hok, hlocks, ?_, ?_, ?_, ?_, ?_, ?_⟩
    all_goals simp [CoverState.initial, Cover.start, CoverState.RunsLocked]
  · rintro ⟨s, h⟩ e ⟨s', h'⟩ - hok hallowed hstep
    obtain ⟨hstep, hnote⟩ := TransitionSystem.observe_step_iff.mp hstep
    obtain rfl : h' = h.note s e s' := hnote
    exact hok.step hallowed hstep

/-- A handler whose job its pool has locked runs beside the pool's heartbeat row. -/
theorem handler_covered {q : CoverState × Cover} {task : TaskRun}
    (hreach : covers.ReachableWith (fun q e => q.2.allowed q.1 e = true) q)
    (hruns : q.1.RunsLocked task) : (q.1.crash.beats.get? task.pool).isSome := by
  have hok := ok_reachable hreach
  obtain ⟨hbeaten, hgone⟩ := hok.running task hruns
  obtain ⟨row, hrow, hbeaten⟩ := (Option.any_eq_true _ _).mp hbeaten
  rcases hok.beaten _ row hrow hbeaten with hsome | hgone'
  · exact hsome
  · simp [hgone] at hgone'

namespace CoverTrace

def spec : JobSpec := ⟨"import", .null, none, none, none, none, none, none, .replace⟩

/-- The first heartbeat is recorded, then the handler runs. -/
def registered : List CoverEvent :=
  [.create 0 "p", .crash (.addJob 0 spec), .crash (.claim 0 "p" 1), .enter 0, .crash (.beat 0 "p"),
    .ready "p" false, .handle 0]

/-- The first heartbeat fails. -/
def unregistered : List CoverEvent :=
  [.create 0 "p", .crash (.addJob 0 spec), .crash (.claim 0 "p" 1), .enter 0, .ready "p" true, .handle 0]

/-- Another worker's sweep presumes the pool dead; the pool locks a job between the sweep's release
statement and its commit. -/
def presumedDead : List CoverEvent :=
  [.create 0 "p", .crash (.beat 0 "p"), .ready "p" false, .crash (.addJob 0 spec),
    .crash (.tick 400000000), .crash (.begin 0 400000000 300000 (some "q")),
    .crash (.claimDead 0 fun _ => false), .crash (.releaseBegin 0),
    .crash (.claim 400000000 "p" 1), .enter 0, .handle 0, .crash (.release 0), .crash (.commit 0)]

/-- The first task runs under its pool's lock. -/
def runs (q : CoverState × Cover) : Bool :=
  (q.1.tasks.get? 0).any fun task =>
    task.stage = .running && q.1.crash.db.holder (.job task.id) = some task.pool

theorem exists_task {q : CoverState × Cover} (hruns : runs q = true) :
    ∃ task, q.1.tasks.get? 0 = some task ∧ q.1.RunsLocked task := by
  obtain ⟨task, htask, hrun⟩ := (Option.any_eq_true _ _).mp hruns
  simp only [Bool.and_eq_true, decide_eq_true_eq] at hrun
  exact ⟨task, htask, ⟨0, htask⟩, hrun⟩

end CoverTrace

theorem handler_covered_registered : ∃ (q : CoverState × Cover) (task : TaskRun),
    q.1.RunsLocked task ∧ (q.1.crash.beats.get? task.pool).isSome := by
  have hinit : covers.Init (CoverState.initial, .start) := ⟨rfl, rfl⟩
  obtain ⟨q, hreach, hq⟩ := TransitionSystem.exists_reachableWith_of_runWith CoverTrace.registered
    CoverTrace.runs (fun (q : CoverState × Cover) e (hc : q.2.allowed q.1 e = true) => hc) hinit
    (by decide)
  obtain ⟨task, -, hruns⟩ := CoverTrace.exists_task hq
  exact ⟨q, task, hruns, handler_covered hreach hruns⟩

/-- A failed first heartbeat, or a lock that a sweep's release statement missed. -/
theorem handler_uncovered :
    (∃ q task, covers.Reachable q ∧ q.1.RunsLocked task ∧ q.2.gone task.pool = false ∧
      q.1.crash.beats.get? task.pool = none) ∧
    ∃ q task, covers.Reachable q ∧ q.1.RunsLocked task ∧ q.2.gone task.pool = true ∧
      q.1.crash.beats.get? task.pool = none := by
  have hinit : covers.Init (CoverState.initial, .start) := ⟨rfl, rfl⟩
  constructor
  · obtain ⟨q, hreach, hq⟩ := TransitionSystem.exists_reachable_of_run CoverTrace.unregistered
      (fun (q : CoverState × Cover) => CoverTrace.runs q && (q.1.tasks.get? 0).all fun task =>
        !q.2.gone task.pool && (q.1.crash.beats.get? task.pool).isNone) hinit (by decide)
    simp only [Bool.and_eq_true] at hq
    obtain ⟨task, htask, hruns⟩ := CoverTrace.exists_task hq.1
    exact ⟨q, task, hreach, hruns, by simpa [htask] using hq.2⟩
  · obtain ⟨q, hreach, hq⟩ := TransitionSystem.exists_reachable_of_run CoverTrace.presumedDead
      (fun (q : CoverState × Cover) => CoverTrace.runs q && (q.1.tasks.get? 0).all fun task =>
        q.2.gone task.pool && (q.1.crash.beats.get? task.pool).isNone) hinit (by decide)
    simp only [Bool.and_eq_true] at hq
    obtain ⟨task, htask, hruns⟩ := CoverTrace.exists_task hq.1
    exact ⟨q, task, hreach, hruns, by simpa [htask] using hq.2⟩

end BetterGraphileWorker
