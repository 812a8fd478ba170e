-- SUMMARY: One worker of a pool: what its lifecycle keeps, and what each of its steps changes that the pool can see.
import BetterGraphileWorker.Worker.WorkerPool

/-!
# One worker of a pool

Without restarts the run of a worker has one runner, and a runner that nobody asked to stop ends
with an error. The pool sees of a step whether the worker starts or stops, its run, and which
runners are starting or alive.
-/

namespace BetterGraphileWorker

namespace WorkerPool

/-- The run of a worker, and its only runner. -/
structure RunOk (l : Lifecycle) (run : Run) (id : RunnerId) : Prop where
  runner : run.runner = some id
  below : id < l.nextRunner
  launched : l.runners.get? id ≠ some .launching
  supervise : run.supervise = .watching id ∨ run.supervise = .settled
  stopped : run.stopped = true → l.stopping ≠ none
  /-- Nobody asked it to stop. -/
  unasked : run.stopped = false →
    l.runners.get? id = some (.alive false) ∨ l.runners.get? id = some (.ended true)

structure WorkerOk (l : Lifecycle) : Prop where
  ok : l.Ok
  once : l.once = none
  run : ∀ run, l.run = some run → ∃ runner, RunOk l run runner
  launching : ∀ runner, l.starting = some (.launching runner) →
    runner < l.nextRunner ∧ ∃ status, l.runners.get? runner = some status ∧
      (status = .launching ∨ status = .refused ∨ status = .alive false ∨ status = .ended true)
  below : ∀ id status, l.runners.get? id = some status → id < l.nextRunner

/-- A step that settles nothing the pool waits for. -/
structure Frame (l l' : Lifecycle) : Prop where
  starting : l'.starting = none ↔ l.starting = none
  launching : ∀ runner, l'.starting = some (.launching runner) →
    l.starting = some (.launching runner) ∨ l.nextRunner ≤ runner
  stopping : l'.stopping = none ↔ l.stopping = none
  run : l.stopping = none → l'.run = l.run
  kept : ∀ run', l'.run = some run' →
    ∃ run, l.run = some run ∧ run.runner = run'.runner ∧ run.supervise = run'.supervise
  next : l.nextRunner ≤ l'.nextRunner
  busy : ∀ id, id < l.nextRunner → l'.busy id = true → l.busy id = true
  /-- A runner that nobody stops ends with an error. -/
  died : ∀ id, l.busy id = true → l'.busy id = false →
    l.starting = some (.launching id) ∨ l.stopping ≠ none ∨
      l'.runners.get? id = some (.ended true) ∧ ∃ run, l'.run = some run ∧ run.runner = some id
  ended : ∀ id failed, l.runners.get? id = some (.ended failed) →
    l'.runners.get? id = some (.ended failed)

variable {l l' : Lifecycle} {id runner : RunnerId} {ok failed : Bool}

theorem workerOk_initial : WorkerOk .initial where
  ok := by
    constructor
    all_goals simp [Lifecycle.initial, Lifecycle.busy]
  once := rfl
  run := nofun
  launching := nofun
  below := nofun

/-- A busy runner is launching, or the runner of the run. -/
theorem WorkerOk.busy_cases (h : WorkerOk l) (hbusy : l.busy id = true) :
    l.starting = some (.launching id) ∨
      l.starting = none ∧ ∃ run, l.run = some run ∧ run.runner = some id ∧ run.supervise = .watching id := by
  have howner := h.ok.owned id hbusy
  cases hstarting : l.starting with
  | none =>
    apply Or.inr
    cases hrun : l.run with
    | none => simp [Lifecycle.owner, hstarting, hrun] at howner
    | some run =>
      obtain ⟨runner, hrunOk⟩ := h.run run hrun
      simp only [Lifecycle.owner, hstarting, hrun, Option.bind_some] at howner
      rcases hrunOk.supervise with hwatching | hsettled
      · obtain rfl : runner = id := by simpa [hwatching, Lifecycle.Supervise.runner?] using howner
        exact ⟨rfl, run, rfl, hrunOk.runner, hwatching⟩
      · simp [hsettled, Lifecycle.Supervise.runner?] at howner
  | some pc =>
    cases pc with
    | launching runner =>
      obtain rfl : runner = id := by simpa [Lifecycle.owner, hstarting] using howner
      exact .inl rfl
    | scheduled | releasing =>
      have hrun : l.run = none := h.ok.starting (by simp [hstarting])
      simp [Lifecycle.owner, hstarting, hrun] at howner

theorem WorkerOk.idle (h : WorkerOk l) (hstarting : l.starting = none) (hrun : l.run = none) :
    l.busy id = false := by
  cases hbusy : l.busy id with
  | false => rfl
  | true => rcases h.busy_cases hbusy with heq | ⟨-, run, heq, -⟩ <;> simp_all

/-! ## Calls -/

theorem WorkerOk.start (h : WorkerOk l) : WorkerOk l.start.1 := by
  have hok := h.ok.start
  have hcases := Lifecycle.start_cases l
  generalize l.start.1 = l' at hok hcases ⊢
  cases hcases with
  | chained =>
    refine ⟨hok, h.once, fun run hrun => ?_, h.launching, h.below⟩
    obtain ⟨runner, hrunOk⟩ := h.run run hrun
    exact ⟨runner, hrunOk.runner, hrunOk.below, hrunOk.launched, hrunOk.supervise, hrunOk.stopped,
      hrunOk.unasked⟩
  | rejected | running => exact h
  | started hstopping honce hstarting hrun =>
    exact ⟨hok, h.once, by simp [hrun], by simp, h.below⟩

theorem WorkerOk.resume (h : WorkerOk l) : WorkerOk (resume l) where
  ok := ⟨h.ok.owned, h.ok.starting, h.ok.once, h.ok.stopping, h.ok.stopped, h.ok.signals,
    h.ok.listeners⟩
  once := h.once
  run run hrun := by
    obtain ⟨runner, hrunOk⟩ := h.run run hrun
    exact ⟨runner, hrunOk.runner, hrunOk.below, hrunOk.launched, hrunOk.supervise, hrunOk.stopped,
      hrunOk.unasked⟩
  launching := h.launching
  below := h.below

@[simp] theorem get?_askStop : (l.askStop runner).runners.get? id =
    if id = runner then (l.runners.get? id).map .ask else l.runners.get? id := by
  simp only [Lifecycle.askStop, Table.get?_update]

/-- The stop body asks the runner of the run to stop. -/
private theorem stopRun_ok (h : WorkerOk l) (hok : l.stopRun.Ok) (hstarting : l.starting = none) :
    WorkerOk l.stopRun := by
  have hcases := Lifecycle.stopRun_cases l
  have honce := h.once
  have hnext : l.cleanupSignals.nextRunner = l.nextRunner := by
    unfold Lifecycle.cleanupSignals
    split <;> rfl
  generalize l.stopRun = l' at hok hcases ⊢
  cases hcases with
  | idle hrun =>
    refine ⟨hok, by simpa using honce, by simp [hrun], by simp [hstarting], fun id status hget => ?_⟩
    simpa [hnext] using h.below id status (by simpa using hget)
  | restarting hrun hrunner =>
    obtain ⟨runner, hrunOk⟩ := h.run _ hrun
    simp [hrunOk.runner] at hrunner
  | @running run runner hrun hrunner =>
    obtain ⟨runner', hrunOk⟩ := h.run _ hrun
    obtain rfl := Option.some.inj (hrunOk.runner.symm.trans hrunner)
    refine ⟨hok, by simpa [Lifecycle.askStop] using honce, fun run' hrun' => ?_,
      by simp [Lifecycle.askStop, hstarting], fun id status hget => ?_⟩
    · obtain rfl := Option.some.inj hrun'
      refine ⟨runner', hrunOk.runner, ?_, ?_, hrunOk.supervise, by simp, by simp⟩
      · simpa [Lifecycle.askStop, hnext] using hrunOk.below
      · have hlaunched := hrunOk.launched
        change (l.cleanupSignals.askStop runner').runners.get? runner' ≠ some .launching
        rw [get?_askStop, if_pos rfl, Lifecycle.cleanupSignals_runners]
        cases hrow : l.runners.get? runner' with
        | none => simp
        | some status => cases status <;> simp_all [RunnerStatus.ask]
    · have hget' : ((l.cleanupSignals.askStop runner').runners.get? id) = some status := hget
      rw [get?_askStop, Lifecycle.cleanupSignals_runners] at hget'
      have hbelow := h.below id
      simp only [Lifecycle.askStop, hnext]
      split at hget'
      · obtain ⟨status', hstatus, -⟩ := Option.map_eq_some_iff.mp hget'
        exact hbelow _ hstatus
      · exact hbelow _ hget'

theorem WorkerOk.stop (h : WorkerOk l) : WorkerOk l.stop.1 := by
  have hok := h.ok.stop
  have hcases := Lifecycle.stop_cases l
  generalize l.stop.1 = l' at hok hcases ⊢
  cases hcases with
  | shared => exact h
  | startup hstopping hstarting =>
    refine ⟨hok, h.once, fun run hrun => ?_, h.launching, h.below⟩
    obtain ⟨runner, hrunOk⟩ := h.run run hrun
    exact ⟨runner, hrunOk.runner, hrunOk.below, hrunOk.launched, hrunOk.supervise, by simp,
      hrunOk.unasked⟩
  | stops hstopping hstarting =>
    have heq : l.stopOnce = l.stopRun := by simp [Lifecycle.stopOnce, h.once]
    rw [heq] at hok ⊢
    exact stopRun_ok h hok hstarting

/-! ## Steps that the pool does not wait for -/

private theorem step_ok (h : WorkerOk l) {e : LifecycleEvent} (he : e ≠ .lateStopped false)
    (hstep : l.step options e = some l') : l'.Ok := by
  apply h.ok.step _ hstep
  cases e with
  | lateStopped ok =>
    cases ok with
    | true => rfl
    | false => exact absurd rfl he
  | _ => rfl

theorem startBody_frame (h : WorkerOk l) (hstep : l.startBody options = some l') :
    WorkerOk l' ∧ Frame l l' := by
  have hok : l'.Ok := step_ok h (e := .startBody) (by simp) hstep
  unfold Lifecycle.startBody at hstep
  split at hstep
  · rename_i hstarting
    have hrun : l.run = none := h.ok.starting (by simp [hstarting])
    simp only [options, Bool.false_eq_true, if_false, Option.some.injEq] at hstep
    subst hstep
    have hget : ∀ id, (l.launch.runners.get? id) =
        if id = l.nextRunner then some .launching else l.runners.get? id := by
      intro id
      rw [Lifecycle.launch, Table.get?_insert]
    refine ⟨⟨hok, h.once, by simp [Lifecycle.launch, hrun], fun runner heq => ?_,
      fun id status hrow => ?_⟩, ⟨by simp [hstarting], fun runner heq => ?_, Iff.rfl, fun _ => rfl,
      by simp [Lifecycle.launch, hrun], Nat.le_succ _, fun id hlt hbusy => ?_, fun id hbusy hnot => ?_,
      fun id failed hended => ?_⟩⟩
    · obtain rfl : l.nextRunner = runner := by simpa using heq
      refine ⟨Nat.lt_succ_self l.nextRunner, .launching, ?_, .inl rfl⟩
      exact (hget l.nextRunner).trans (if_pos rfl)
    · have hrow : l.launch.runners.get? id = some status := hrow
      rw [hget] at hrow
      split at hrow
      · rename_i heq
        rw [heq]
        exact Nat.lt_succ_self l.nextRunner
      · exact (h.below id status hrow).trans (Nat.lt_succ_self _)
    · obtain rfl : l.nextRunner = runner := by simpa using heq
      exact .inr le_rfl
    · have hbusy : l.launch.busy id = true := hbusy
      simpa [hlt.ne] using hbusy
    · have hnot : l.launch.busy id = false := hnot
      simp [hbusy] at hnot
    · have hlt : id < l.nextRunner := h.below id _ hended
      have hrow : l.launch.runners.get? id = some (.ended failed) := by simpa [hget, hlt.ne] using hended
      exact hrow
  · cases hstep

/-- A runner's status changes, and everything else stays. -/
private theorem setStatus_frame (h : WorkerOk l) {status status' : RunnerStatus}
    (hrow : l.runners.get? runner = some status)
    (hok : Lifecycle.Ok { l with runners := l.runners.insert runner status' })
    (hunended : ∀ failed, status ≠ .ended failed) (hlaunched : status' ≠ .launching)
    (hbusy : status'.busy = true → status.busy = true)
    (hlaunching : l.starting = some (.launching runner) →
      status' = .refused ∨ status' = .alive false ∨ status' = .ended true)
    (hunasked : ∀ run, l.run = some run → run.runner = some runner → run.stopped = false →
      status' = .alive false ∨ status' = .ended true)
    (hdied : status.busy = true → status'.busy = false →
      l.starting = some (.launching runner) ∨ l.stopping ≠ none ∨
        status' = .ended true ∧ ∃ run, l.run = some run ∧ run.runner = some runner) :
    WorkerOk { l with runners := l.runners.insert runner status' } ∧
      Frame l { l with runners := l.runners.insert runner status' } := by
  refine ⟨⟨hok, h.once, fun run hrun => ?_, fun id heq => ?_, fun id st hget => ?_⟩,
    ⟨Iff.rfl, fun _ => .inl, Iff.rfl, fun _ => rfl, fun run hrun => ⟨run, hrun, rfl, rfl⟩, le_rfl,
      fun id _ hid => ?_, fun id hid hnot => ?_, fun id failed hended => ?_⟩⟩
  · obtain ⟨id, hrunOk⟩ := h.run run hrun
    refine ⟨id, hrunOk.runner, hrunOk.below, ?_, hrunOk.supervise, hrunOk.stopped,
      fun hstopped => ?_⟩
    · simp only [Table.get?_insert]
      split
      · simpa using hlaunched
      · exact hrunOk.launched
    · simp only [Table.get?_insert]
      split
      · rename_i heq
        simpa using hunasked run hrun (heq ▸ hrunOk.runner) hstopped
      · exact hrunOk.unasked hstopped
  · obtain ⟨hlt, st, hst, hcases⟩ := h.launching id heq
    simp only [Table.get?_insert]
    refine ⟨hlt, ?_⟩
    split
    · rename_i hid
      exact ⟨status', rfl, .inr (hlaunching (hid ▸ heq))⟩
    · exact ⟨st, hst, hcases⟩
  · simp only [Table.get?_insert] at hget
    split at hget
    · rename_i heq
      exact heq ▸ h.below runner status hrow
    · exact h.below id st hget
  · simp only [Lifecycle.busy, Table.get?_insert] at hid ⊢
    split at hid
    · rename_i heq
      rw [heq, hrow]
      simpa using hbusy (by simpa using hid)
    · exact hid
  · simp only [Lifecycle.busy, Table.get?_insert] at hid hnot ⊢
    split at hnot
    · rename_i heq
      rw [heq, hrow] at hid
      rw [heq, if_pos rfl, Option.some.injEq]
      exact hdied (by simpa using hid) (by simpa using hnot)
    · rw [hid] at hnot
      cases hnot
  · simp only [Table.get?_insert]
    split
    · rename_i heq
      rw [heq, hrow] at hended
      exact absurd (Option.some.inj hended) (hunended failed)
    · exact hended

theorem launched_frame (h : WorkerOk l) (hstep : l.launched runner ok = some l') :
    WorkerOk l' ∧ Frame l l' := by
  have hok : l'.Ok := step_ok h (e := .launched runner ok) (by simp) hstep
  unfold Lifecycle.launched at hstep
  split at hstep
  · rename_i hrow
    obtain rfl := Option.some.inj hstep
    have hbusy : l.busy runner = true := by simp [Lifecycle.busy, hrow, RunnerStatus.busy]
    have hstarting : l.starting = some (.launching runner) := by
      rcases h.busy_cases hbusy with hstarting | ⟨-, run, hrun, hrunner, -⟩
      · exact hstarting
      · obtain ⟨id, hrunOk⟩ := h.run run hrun
        obtain rfl := Option.some.inj (hrunner.symm.trans hrunOk.runner)
        exact absurd hrow hrunOk.launched
    apply setStatus_frame h hrow hok
    · simp
    · cases ok <;> simp
    · simp [RunnerStatus.busy]
    · intro _
      cases ok <;> simp
    · intro run hrun
      simp [h.ok.starting (by simp [hstarting])] at hrun
    · intro _ _
      exact .inl hstarting
  · cases hstep

theorem ended_frame (h : WorkerOk l)
    (hasked : failed = false → l.runners.get? runner = some (.alive true))
    (hstep : l.ended runner failed = some l') : WorkerOk l' ∧ Frame l l' := by
  have hok : l'.Ok := step_ok h (e := .ended runner failed) (by simp) hstep
  have hrows : (∃ asked, l.runners.get? runner = some (.alive asked)) ∨
      l.runners.get? runner = some .stopped := by
    unfold Lifecycle.ended at hstep
    split at hstep
    · rename_i asked hrow
      exact .inl ⟨asked, hrow⟩
    · rename_i hrow
      exact .inr hrow
    · cases hstep
  have heq : l' = { l with runners := l.runners.insert runner (.ended failed) } := by
    unfold Lifecycle.ended at hstep
    rcases hrows with ⟨asked, hrow⟩ | hrow
    · simp only [hrow, Option.some.injEq] at hstep
      exact hstep.symm
    · simp only [hrow, Option.some.injEq] at hstep
      exact hstep.symm
  subst heq
  -- A runner that nobody asked is the one of an unstopped run, or its start has not resumed.
  have hfailed : l.runners.get? runner ≠ some (.alive true) → failed = true := by
    intro hnot
    cases failed with
    | true => rfl
    | false => exact absurd (hasked rfl) hnot
  obtain ⟨status, hrow, hstatus⟩ : ∃ status, l.runners.get? runner = some status ∧
      ((∃ asked, status = .alive asked) ∨ status = .stopped) := by
    rcases hrows with ⟨asked, hrow⟩ | hrow
    · exact ⟨_, hrow, .inl ⟨asked, rfl⟩⟩
    · exact ⟨_, hrow, .inr rfl⟩
  apply setStatus_frame h hrow hok
  · rintro f rfl
    simp at hstatus
  · simp
  · simp [RunnerStatus.busy]
  · intro hstarting
    obtain ⟨-, st, hst, hcases⟩ := h.launching runner hstarting
    obtain rfl := Option.some.inj (hrow.symm.trans hst)
    have hnot : l.runners.get? runner ≠ some (.alive true) := by
      rw [hrow]
      rintro heq
      simp_all
    simp [hfailed hnot]
  · intro run hrun hrunner hstopped
    obtain ⟨id, hrunOk⟩ := h.run run hrun
    obtain rfl := Option.some.inj (hrunner.symm.trans hrunOk.runner)
    have hnot : l.runners.get? runner ≠ some (.alive true) := by
      rcases hrunOk.unasked hstopped with heq | heq <;> simp [heq]
    simp [hfailed hnot]
  · intro hbusy _
    have hbusy : l.busy runner = true := by simp [Lifecycle.busy, hrow, hbusy]
    rcases h.busy_cases hbusy with hstarting | ⟨-, run, hrun, hrunner, -⟩
    · exact .inl hstarting
    · obtain ⟨id, hrunOk⟩ := h.run run hrun
      obtain rfl := Option.some.inj (hrunner.symm.trans hrunOk.runner)
      cases hstopped : run.stopped with
      | true => exact .inr (.inl (hrunOk.stopped hstopped))
      | false =>
        have hnot : l.runners.get? runner ≠ some (.alive true) := by
          rcases hrunOk.unasked hstopped with heq | heq <;> simp [heq]
        exact .inr (.inr ⟨by rw [hfailed hnot], run, hrun, hrunner⟩)

/-- What the stop body leaves as it is. -/
structure Asked (l l' : Lifecycle) : Prop where
  starting : l'.starting = l.starting
  stopping : l'.stopping ≠ none
  kept : ∀ run', l'.run = some run' →
    ∃ run, l.run = some run ∧ run.runner = run'.runner ∧ run.supervise = run'.supervise
  gone : l.run = none → l'.run = none
  next : l'.nextRunner = l.nextRunner
  busy : ∀ id, l'.busy id = l.busy id
  ended : ∀ id failed, l.runners.get? id = some (.ended failed) →
    l'.runners.get? id = some (.ended failed)

theorem asked_stopRun (l : Lifecycle) : Asked l l.stopRun := by
  have hcases := Lifecycle.stopRun_cases l
  have hnext : l.cleanupSignals.nextRunner = l.nextRunner := by
    unfold Lifecycle.cleanupSignals
    split <;> rfl
  have hbusy : ∀ id, l.cleanupSignals.busy id = l.busy id := by simp [Lifecycle.busy]
  generalize l.stopRun = l' at hcases ⊢
  cases hcases with
  | idle hrun =>
    exact ⟨by simp, by simp, by simp [hrun], by simp [hrun], hnext, hbusy, by simp⟩
  | restarting hrun hrunner =>
    refine ⟨by simp, by simp, fun run' hrun' => ?_, by simp [hrun], hnext, hbusy, by simp⟩
    obtain rfl := Option.some.inj hrun'
    exact ⟨_, hrun, rfl, rfl⟩
  | @running run runner hrun hrunner =>
    refine ⟨by simp [Lifecycle.askStop], by simp, fun run' hrun' => ?_, by simp [hrun], hnext,
      fun id => ?_, fun id failed hended => ?_⟩
    · obtain rfl := Option.some.inj hrun'
      exact ⟨_, hrun, rfl, rfl⟩
    · have heq : (l.cleanupSignals.askStop runner).busy id = l.busy id := by
        rw [Lifecycle.busy_askStop, hbusy]
      exact heq
    · have heq : (l.cleanupSignals.askStop runner).runners.get? id = some (.ended failed) := by
        rw [get?_askStop, Lifecycle.cleanupSignals_runners, hended]
        split <;> rfl
      exact heq

theorem WorkerOk.asked_stop (h : WorkerOk l) : Asked l l.stop.1 := by
  have hcases := Lifecycle.stop_cases l
  generalize l.stop.1 = l' at hcases ⊢
  cases hcases with
  | shared hstopping =>
    exact ⟨rfl, hstopping, fun run hrun => ⟨run, hrun, rfl, rfl⟩, id, rfl, fun _ => rfl, fun _ _ => id⟩
  | startup hstopping hstarting =>
    exact ⟨rfl, by simp, fun run hrun => ⟨run, hrun, rfl, rfl⟩, id, rfl, fun _ => rfl, fun _ _ => id⟩
  | stops hstopping hstarting =>
    have heq : l.stopOnce = l.stopRun := by simp [Lifecycle.stopOnce, h.once]
    rw [heq]
    exact asked_stopRun l

theorem stop_of_stopping (hstopping : l.stopping ≠ none) : l.stop.1 = l := by
  unfold Lifecycle.stop
  split
  · rfl
  · contradiction

private theorem Asked.frame (h : Asked l l') (hstopping : l.stopping ≠ none) : Frame l l' where
  starting := by rw [h.starting]
  launching _ heq := .inl (h.starting ▸ heq)
  stopping := iff_of_false h.stopping hstopping
  run hnone := absurd hnone hstopping
  kept := h.kept
  next := h.next.ge
  busy id _ hbusy := by rwa [h.busy] at hbusy
  died id hbusy hnot := by simp [h.busy, hbusy] at hnot
  ended := h.ended

theorem stopResumed_frame (h : WorkerOk l) (hstep : l.stopResumed = some l') :
    WorkerOk l' ∧ Frame l l' := by
  have hok : l'.Ok := step_ok h (e := .stopResumed) (by simp) hstep
  have heq : l.stopOnce = l.stopRun := by simp [Lifecycle.stopOnce, h.once]
  unfold Lifecycle.stopResumed at hstep
  split at hstep
  · rename_i hpc
    split at hstep
    · rename_i hstarting
      obtain rfl := Option.some.inj hstep
      rw [heq] at hok ⊢
      exact ⟨stopRun_ok h hok (Option.isNone_iff_eq_none.mp hstarting),
        (asked_stopRun l).frame (by simp [hpc])⟩
    · cases hstep
  · rename_i hpc
    split at hstep
    · obtain rfl := Option.some.inj hstep
      exact ⟨stopRun_ok h hok (h.ok.stopping _ hpc), (asked_stopRun l).frame (by simp [hpc])⟩
    · cases hstep
  · cases hstep

theorem runnerStopped_frame (h : WorkerOk l) (hpc : l.stopping = some (.stoppingRunner runner))
    (hended : l.runners.get? runner = some (.ended failed)) (hstep : l.runnerStopped true = some l') :
    WorkerOk l' ∧ Frame l l' := by
  have hok : l'.Ok := step_ok h (e := .runnerStopped true) (by simp) hstep
  simp only [Lifecycle.runnerStopped, hpc, if_true, Option.some.injEq] at hstep
  subst hstep
  -- The runner has ended, so its status stays.
  have hrows : ∀ id, (l.stopRunner runner).runners.get? id = l.runners.get? id := by
    intro id
    simp only [Lifecycle.stopRunner, Table.get?_update]
    split
    · rename_i heq
      simp [heq, hended, RunnerStatus.halt, RunnerStatus.busy]
    · rfl
  have hbusy : ∀ id, (l.stopRunner runner).busy id = l.busy id := by
    intro id
    simp only [Lifecycle.busy, hrows]
  refine ⟨⟨hok, h.once, fun run hrun => ?_, fun id heq => ?_, fun id status hget => ?_⟩,
    ⟨Iff.rfl, fun _ => .inl, by simp [hpc], by simp [hpc], fun run hrun => ⟨run, hrun, rfl, rfl⟩,
      le_rfl, fun id _ hid => ?_, fun id hid hnot => ?_, fun id failed hend => ?_⟩⟩
  · obtain ⟨id, hrunOk⟩ := h.run run hrun
    refine ⟨id, hrunOk.runner, hrunOk.below, ?_, hrunOk.supervise, by simp, fun hstopped => ?_⟩
    · exact fun heq => hrunOk.launched ((hrows id).symm.trans heq)
    · exact (hrunOk.unasked hstopped).imp (hrows id).trans (hrows id).trans
  · obtain ⟨hlt, status, hst, hcases⟩ := h.launching id heq
    exact ⟨hlt, status, (hrows id).trans hst, hcases⟩
  · exact h.below id status ((hrows id).symm.trans hget)
  · exact (hbusy id).symm.trans hid
  · have hnot : (l.stopRunner runner).busy id = false := hnot
    simp [hbusy, hid] at hnot
  · exact (hrows id).trans hend

theorem completionSettled_frame (h : WorkerOk l) (hstep : l.completionSettled = some l') :
    WorkerOk l' ∧ Frame l l' := by
  have hok : l'.Ok := step_ok h (e := .completionSettled) (by simp) hstep
  unfold Lifecycle.completionSettled at hstep
  split at hstep
  · rename_i hpc
    split at hstep
    · obtain rfl := Option.some.inj hstep
      refine ⟨⟨hok, h.once, by simp, h.launching, h.below⟩,
        ⟨Iff.rfl, fun _ => .inl, by simp [hpc], by simp [hpc], by simp, le_rfl, fun _ _ hid => hid,
          fun id hid hnot => ?_, fun _ _ hend => hend⟩⟩
      have hnot : l.busy id = false := hnot
      simp [hid] at hnot
    · cases hstep
  · cases hstep

/-! ## Steps that settle something -/

/-- What a startup leaves: a new run, or a release of what it had acquired. -/
theorem startResumed_cases (h : WorkerOk l) (hstep : l.startResumed = some l') :
    WorkerOk l' ∧ (l'.run = none ∧ Frame l l' ∨
      ∃ runner, l.starting = some (.launching runner) ∧ l.run = none ∧
        l' = { l with run := some ⟨false, some runner, .watching runner⟩, starting := none } ∧
        (l.busy runner = true ∨ l.runners.get? runner = some (.ended true))) := by
  have hok : l'.Ok := step_ok h (e := .startResumed) (by simp) hstep
  unfold Lifecycle.startResumed at hstep
  split at hstep
  · rename_i runner hstarting
    have hrun : l.run = none := h.ok.starting (by simp [hstarting])
    obtain ⟨hlt, status, hrow, hcases⟩ := h.launching runner hstarting
    split at hstep
    · cases hstep
    · cases hstep
    · obtain rfl := Option.some.inj hstep
      have hnext : l.cleanupSignals.nextRunner = l.nextRunner := by
        unfold Lifecycle.cleanupSignals
        split <;> rfl
      refine ⟨⟨hok, by simpa using h.once, by simp [hrun], by simp, fun id status hget => ?_⟩,
        .inl ⟨by simpa using hrun, ⟨by simp [hstarting], by simp, by simp, by simp, by simp [hrun],
          hnext.ge, fun id _ hid => ?_, fun id hid hnot => ?_, by simp⟩⟩⟩
      · exact hnext ▸ h.below id status (by simpa using hget)
      · simpa [Lifecycle.busy] using hid
      · simp only [Lifecycle.busy, Lifecycle.cleanupSignals_runners] at hid hnot
        simp [hid] at hnot
    · rename_i status' hnotLaunching hnotRefused hrow'
      obtain rfl := Option.some.inj hstep
      obtain rfl := Option.some.inj (hrow.symm.trans hrow')
      have hstatus : status = .alive false ∨ status = .ended true := by
        rcases hcases with rfl | rfl | hcases
        · exact absurd rfl hnotLaunching
        · exact absurd rfl hnotRefused
        · exact hcases
      refine ⟨⟨hok, h.once, fun run heq => ?_, by simp, h.below⟩, .inr ⟨runner, hstarting, hrun, rfl, ?_⟩⟩
      · obtain rfl := Option.some.inj heq
        refine ⟨runner, rfl, hlt, ?_, .inl rfl, by simp, fun _ => ?_⟩
        · rcases hstatus with rfl | rfl <;> simp [hrow]
        · rcases hstatus with rfl | rfl <;> simp [hrow]
      · rcases hstatus with rfl | rfl
        · exact .inl (by simp [Lifecycle.busy, hrow, RunnerStatus.busy])
        · exact .inr hrow
  · cases hstep

theorem startReleased_cases (h : WorkerOk l) (hstep : l.startReleased = some l') :
    WorkerOk l' ∧ l.starting ≠ none ∧ l.run = none ∧ l' = { l with starting := none } ∧
      ∀ id, l.busy id = false := by
  have hok : l'.Ok := step_ok h (e := .startReleased) (by simp) hstep
  unfold Lifecycle.startReleased at hstep
  split at hstep
  · rename_i hstarting
    have hrun : l.run = none := h.ok.starting (by simp [hstarting])
    obtain rfl := Option.some.inj hstep
    refine ⟨⟨hok, h.once, by simp [hrun], by simp, h.below⟩, by simp [hstarting], hrun, rfl, fun id => ?_⟩
    cases hbusy : l.busy id with
    | false => rfl
    | true => rcases h.busy_cases hbusy with heq | ⟨heq, -⟩ <;> simp [hstarting] at heq
  · cases hstep

/-- A shutdown ends once the worker has neither a run nor a startup. -/
theorem released_cases (h : WorkerOk l) (hstep : l.released ok = some l') :
    WorkerOk l' ∧ l.stopping ≠ none ∧ l.starting = none ∧ l.run = none ∧ l'.starting = none ∧
      l'.stopping = none ∧ l'.run = none ∧ l'.runners = l.runners ∧ l'.nextRunner = l.nextRunner := by
  have hok : l'.Ok := step_ok h (e := .released ok) (by simp) hstep
  have hnext : l.cleanupSignals.nextRunner = l.nextRunner := by
    unfold Lifecycle.cleanupSignals
    split <;> rfl
  unfold Lifecycle.released at hstep
  split at hstep
  · rename_i hpc
    obtain ⟨hstarting, -, -, hrun⟩ := h.ok.stopping _ hpc
    obtain rfl := Option.some.inj hstep
    refine ⟨⟨hok, ?_, ?_, ?_, fun id status hget => ?_⟩, by simp [hpc], hstarting, hrun, ?_, rfl, ?_, ?_, hnext⟩
    · simpa [Lifecycle.settleStop] using h.once
    · simp [Lifecycle.settleStop, hrun]
    · simp [Lifecycle.settleStop, hstarting]
    · have hrow : l.runners.get? id = some status := by simpa [Lifecycle.settleStop] using hget
      exact hnext ▸ h.below id status hrow
    · simpa [Lifecycle.settleStop] using hstarting
    · simpa [Lifecycle.settleStop] using hrun
    · simp [Lifecycle.settleStop]
  · cases hstep

/-- The run of a worker ends with its runner. -/
theorem superviseResumed_cases (h : WorkerOk l) {run : Run} (hrun : l.run = some run)
    (hrunner : run.runner = some runner) (hstep : l.superviseResumed options = some l') :
    WorkerOk l' ∧ run.supervise = .watching runner ∧ l.starting = none ∧ l'.starting = none ∧
      l'.stopping = l.stopping ∧ l'.runners = l.runners ∧ l'.nextRunner = l.nextRunner ∧
      (∀ id, l.busy id = false) ∧
      ((run.stopped = false ∧ l.runners.get? runner = some (.ended true) ∧ l'.run = none) ∨
        l.stopping ≠ none ∧ l'.run = some { run with supervise := .settled }) := by
  have hok : l'.Ok := step_ok h (e := .superviseResumed) (by simp) hstep
  obtain ⟨id, hrunOk⟩ := h.run run hrun
  obtain rfl := Option.some.inj (hrunner.symm.trans hrunOk.runner)
  have hstarting : l.starting = none := by
    cases hstarting : l.starting with
    | none => rfl
    | some pc =>
      rw [h.ok.starting (by simp [hstarting])] at hrun
      cases hrun
  have hnext : l.cleanupSignals.nextRunner = l.nextRunner := by
    unfold Lifecycle.cleanupSignals
    split <;> rfl
  simp only [Lifecycle.superviseResumed, hrun] at hstep
  split at hstep
  · rename_i watched hwatching
    obtain rfl : watched = runner := by
      rcases hrunOk.supervise with heq | heq
      · rw [hwatching] at heq
        exact Supervise.watching.inj heq
      · simp [hwatching] at heq
    split at hstep
    · rename_i failed hended
      have hidle : ∀ id, l.busy id = false := by
        intro id
        cases hbusy : l.busy id with
        | false => rfl
        | true =>
          rcases h.busy_cases hbusy with heq | ⟨-, run', hrun', hrunner', -⟩
          · simp [hstarting] at heq
          · obtain rfl := Option.some.inj (hrun.symm.trans hrun')
            obtain rfl := Option.some.inj (hrunner.symm.trans hrunner')
            simp [Lifecycle.busy, hended, RunnerStatus.busy] at hbusy
      simp only [options, Bool.not_false, Bool.or_true, if_true] at hstep
      split at hstep
      · rename_i hstopped
        obtain rfl := Option.some.inj hstep
        refine ⟨⟨hok, h.once, fun run' hrun' => ?_, by simp [Lifecycle.setSupervise, hstarting], h.below⟩,
          hwatching, hstarting, hstarting, rfl, rfl, rfl, hidle, .inr ⟨hrunOk.stopped hstopped, rfl⟩⟩
        obtain rfl := Option.some.inj hrun'
        exact ⟨watched, hrunOk.runner, hrunOk.below, hrunOk.launched, .inr rfl, hrunOk.stopped,
          hrunOk.unasked⟩
      · rename_i hstopped
        have hstopped : run.stopped = false := by simpa using hstopped
        obtain rfl := Option.some.inj hstep
        refine ⟨⟨hok, by simpa using h.once, by simp, by simp [hstarting], fun id status hget => ?_⟩,
          hwatching, hstarting, by simpa using hstarting, by simp, by simp, hnext, hidle,
          .inl ⟨hstopped, ?_, rfl⟩⟩
        · exact hnext ▸ h.below id status (by simpa using hget)
        · rcases hrunOk.unasked hstopped with heq | heq
          · simp [hended] at heq
          · exact heq
    · cases hstep
  · cases hstep

end WorkerPool

end BetterGraphileWorker
