-- SUMMARY: At most one runner, released only after it: the invariant of createLifecycle and what it gives.
import BetterGraphileWorker.Worker.Lifecycle

/-!
# Exclusivity

Every runner that is starting or alive belongs to the start body or to supervise, and at most one
of the two is active.
-/

namespace BetterGraphileWorker

namespace Lifecycle

/-! ## The invariant -/

/-- The runner that a suspended function is about. -/
def Supervise.runner? : Supervise → Option RunnerId
  | .watching runner | .relaunching runner | .stoppingLate runner => some runner
  | .waiting | .settled => none

/-- The runner that the lifecycle has started and not seen end. -/
def owner (s : Lifecycle) : Option RunnerId :=
  match s.starting with
  | some (.launching runner) => some runner
  | _ => s.run.bind fun run => Supervise.runner? run.supervise

/-- What holds where the stop body is. -/
def StopOk (s : Lifecycle) : Stopping → Prop
  | .awaitingStart => True
  | .awaitingOnce => s.starting = none
  | .stoppingRunner _ | .awaitingCompletion =>
    s.starting = none ∧ s.once = none ∧ s.removeSignals = false
  | .releasing => s.starting = none ∧ s.once = none ∧ s.removeSignals = false ∧ s.run = none

structure Ok (s : Lifecycle) : Prop where
  owned : ∀ id, s.busy id = true → s.owner = some id
  starting : s.starting ≠ none → s.run = none
  once : s.once ≠ none → s.starting = none ∧ s.run = none
  stopping : ∀ pc, s.stopping = some pc → s.StopOk pc
  stopped : ∀ run, s.run = some run →
    run.supervise = .settled ∨ (∃ runner, run.supervise = .stoppingLate runner) → run.stopped = true
  signals : s.removeSignals = true → s.run ≠ none ∨ ∃ runner, s.starting = some (.launching runner)
  listeners : s.listeners = if s.removeSignals then 1 else 0

/-- The stop() of a runner that started after stop() was called does not reject while it is alive. -/
def stopsLate (s : Lifecycle) : LifecycleEvent → Bool
  | .lateStopped false => (s.run.bind fun run => Supervise.runner? run.supervise).all fun id => !s.busy id
  | _ => true

variable {s s' : Lifecycle} {e : LifecycleEvent} {options : LifecycleOptions}

/-! ## Calls -/

theorem Ok.start (hok : s.Ok) : s.start.1.Ok := by
  have hcases := start_cases s
  generalize s.start.1 = s' at hcases ⊢
  cases hcases with
  | chained =>
    exact ⟨hok.owned, hok.starting, hok.once, hok.stopping, hok.stopped, hok.signals, hok.listeners⟩
  | rejected | running => exact hok
  | started hstopping honce hstarting hrun =>
    refine ⟨fun id hbusy => ?_, by simp [hrun], by simp [honce], by simp [hstopping], hok.stopped,
      fun hset => ?_, hok.listeners⟩
    · simpa [owner, hstarting, hrun] using hok.owned id hbusy
    · simpa [hstarting, hrun] using hok.signals hset

private theorem cleanupSignals_ok (hok : s.Ok) : s.cleanupSignals.Ok := by
  unfold cleanupSignals
  split
  · rename_i hset
    refine ⟨hok.owned, hok.starting, hok.once, fun pc hpc => ?_, hok.stopped, by simp, ?_⟩
    · have hpc := hok.stopping pc hpc
      cases pc <;> simp_all [StopOk]
    · simp [hok.listeners, hset]
  · exact hok

private theorem stopCurrent_ok (hok : s.Ok) (hstarting : s.starting = none) (honce : s.once = none)
    (hsignals : s.removeSignals = false) : s.stopCurrent.Ok := by
  unfold stopCurrent
  split
  · rename_i hrun
    refine ⟨hok.owned, hok.starting, hok.once, fun pc hpc => ?_, hok.stopped, hok.signals,
      hok.listeners⟩
    obtain rfl := Option.some.inj hpc
    exact ⟨hstarting, honce, hsignals, hrun⟩
  · rename_i run hrun
    have howner : ∀ id, s.busy id = true → Supervise.runner? run.supervise = some id := by
      intro id hbusy
      simpa [owner, hstarting, hrun] using hok.owned id hbusy
    split
    · rename_i runner hrunner
      refine ⟨fun id hbusy => ?_, by simp [hstarting, askStop], by simp [honce, askStop],
        fun pc hpc => ?_, by simp, by simp, hok.listeners⟩
      · have hbusy : (s.askStop runner).busy id = true := hbusy
        rw [busy_askStop] at hbusy
        simpa [owner, askStop, hstarting] using howner id hbusy
      · obtain rfl := Option.some.inj hpc
        exact ⟨hstarting, honce, hsignals⟩
    · refine ⟨fun id hbusy => ?_, by simp [hstarting], by simp [honce], fun pc hpc => ?_, by simp,
        by simp, hok.listeners⟩
      · simpa [owner, hstarting] using howner id hbusy
      · obtain rfl := Option.some.inj hpc
        exact ⟨hstarting, honce, hsignals⟩

private theorem stopRun_ok (hok : s.Ok) (hstarting : s.starting = none) (honce : s.once = none) :
    s.stopRun.Ok := by
  apply stopCurrent_ok (cleanupSignals_ok hok)
  · simpa using hstarting
  · simpa using honce
  · exact cleanupSignals_removeSignals

private theorem stopOnce_ok (hok : s.Ok) (hstarting : s.starting = none) : s.stopOnce.Ok := by
  unfold stopOnce
  split
  · refine ⟨hok.owned, hok.starting, hok.once, fun pc hpc => ?_, hok.stopped, hok.signals,
      hok.listeners⟩
    obtain rfl := Option.some.inj hpc
    exact hstarting
  · rename_i honce
    rw [Option.not_isSome_iff_eq_none] at honce
    exact stopRun_ok hok hstarting honce

theorem Ok.stop (hok : s.Ok) : s.stop.1.Ok := by
  have hcases := stop_cases s
  generalize s.stop.1 = s' at hcases ⊢
  cases hcases with
  | shared => exact hok
  | startup hstopping hstarting =>
    refine ⟨hok.owned, hok.starting, hok.once, fun pc hpc => ?_, hok.stopped, hok.signals,
      hok.listeners⟩
    obtain rfl := Option.some.inj hpc
    trivial
  | stops hstopping hstarting => exact stopOnce_ok hok hstarting

theorem Ok.runOnce (hok : s.Ok) : s.runOnce.1.Ok := by
  unfold Lifecycle.runOnce
  split
  · exact hok
  · rename_i hidle
    simp only [Bool.or_eq_true, not_or, Bool.not_eq_true, Option.isSome_eq_false_iff,
      Option.isNone_iff_eq_none] at hidle
    obtain ⟨⟨⟨hstarting, hstopping⟩, hrun⟩, -⟩ := hidle
    exact ⟨hok.owned, hok.starting, fun _ => ⟨hstarting, hrun⟩, by simp [hstopping], hok.stopped,
      hok.signals, hok.listeners⟩

private theorem settleStop_ok (hok : s.Ok) {ok : Bool} : (s.settleStop ok).Ok := by
  have hclean := cleanupSignals_ok hok
  unfold settleStop
  exact ⟨hclean.owned, hclean.starting, hclean.once, by simp, hclean.stopped, hclean.signals,
    hclean.listeners⟩

/-! ## Steps -/

private theorem idle_of_owner (hok : s.Ok) (howner : s.owner = none) (id : RunnerId) :
    s.busy id = false := by
  cases hbusy : s.busy id with
  | false => rfl
  | true => simpa [howner] using hok.owned id hbusy

private theorem once_of_starting (hok : s.Ok) (hstarting : s.starting ≠ none) : s.once = none := by
  cases honce : s.once with
  | none => rfl
  | some once => exact absurd (hok.once (by simp [honce])).1 hstarting

theorem stopping_of_starting (hok : s.Ok) (hstarting : s.starting ≠ none) {pc : Stopping}
    (hpc : s.stopping = some pc) : pc = .awaitingStart := by
  have hstop := hok.stopping pc hpc
  cases pc with
  | awaitingStart => rfl
  | awaitingOnce => exact absurd hstop hstarting
  | stoppingRunner | awaitingCompletion | releasing => exact absurd hstop.1 hstarting

/-- Set the listeners of a new run. -/
private theorem installed_listeners (options : LifecycleOptions) (hsignals : s.removeSignals = false)
    (hlisteners : s.listeners = if s.removeSignals then 1 else 0) :
    (if options.handleSignals then s.installSignals else s).listeners =
      if (if options.handleSignals then s.installSignals else s).removeSignals then 1 else 0 := by
  split
  · simp [installSignals, hlisteners, hsignals]
  · exact hlisteners

theorem installed_frame (options : LifecycleOptions) (s : Lifecycle) :
    (if options.handleSignals then s.installSignals else s).run = s.run ∧
    (if options.handleSignals then s.installSignals else s).once = s.once ∧
    (if options.handleSignals then s.installSignals else s).stopping = s.stopping ∧
    (if options.handleSignals then s.installSignals else s).runners = s.runners ∧
    (if options.handleSignals then s.installSignals else s).queued = s.queued ∧
    (if options.handleSignals then s.installSignals else s).ready = s.ready := by
  split <;> simp [installSignals]

private theorem startBody_ok (hok : s.Ok) (hstep : s.startBody options = some s') : s'.Ok := by
  unfold startBody at hstep
  split at hstep
  · rename_i hstarting
    have hrun : s.run = none := hok.starting (by simp [hstarting])
    have honce : s.once = none := once_of_starting hok (by simp [hstarting])
    have hidle := idle_of_owner hok (by simp [owner, hstarting, hrun])
    have hstopping : ∀ pc, s.stopping = some pc → pc = .awaitingStart :=
      fun pc hpc => stopping_of_starting hok (by simp [hstarting]) hpc
    have hsignals : s.removeSignals = false := by
      cases hset : s.removeSignals with
      | false => rfl
      | true => simpa [hrun, hstarting] using hok.signals hset
    have hlisteners := installed_listeners options hsignals hok.listeners
    obtain ⟨hrun', honce', hstopping', hrunners, -⟩ := installed_frame options s
    obtain rfl := Option.some.inj hstep
    dsimp only
    generalize (if options.handleSignals then s.installSignals else s) = c
      at hlisteners hrun' honce' hstopping' hrunners
    refine ⟨fun id hbusy => ?_, fun _ => ?_, ?_, fun pc hpc => ?_, ?_, fun _ => .inr ⟨_, rfl⟩,
      hlisteners⟩
    · have hbusy : c.launch.busy id = true := hbusy
      have hc : c.busy id = s.busy id := by simp [busy, hrunners]
      simp only [busy_launch, hc, hidle id, Bool.or_false, decide_eq_true_eq] at hbusy
      rw [hbusy]
      rfl
    · exact hrun'.trans hrun
    · simp [launch, honce', honce]
    · obtain rfl := hstopping pc (hstopping'.symm.trans hpc)
      trivial
    · simp [launch, hrun', hrun]
  · cases hstep

private theorem startResumed_ok (hok : s.Ok) (hstep : s.startResumed = some s') : s'.Ok := by
  unfold startResumed at hstep
  split at hstep
  · rename_i runner hstarting
    have hrun : s.run = none := hok.starting (by simp [hstarting])
    have honce : s.once = none := once_of_starting hok (by simp [hstarting])
    have hstopping : ∀ pc, s.stopping = some pc → pc = .awaitingStart :=
      fun pc hpc => stopping_of_starting hok (by simp [hstarting]) hpc
    have howner : s.owner = some runner := by simp [owner, hstarting]
    split at hstep
    · cases hstep
    · cases hstep
    · rename_i hrefused
      obtain rfl := Option.some.inj hstep
      have hclean := cleanupSignals_ok hok
      refine ⟨fun id hbusy => ?_, fun _ => by simpa using hrun, by simp [honce], fun pc hpc => ?_,
        by simp [hrun], by simp, hclean.listeners⟩
      · have hbusy : s.busy id = true := by simpa [busy] using hbusy
        have hown := hok.owned id hbusy
        obtain rfl := Option.some.inj (howner.symm.trans hown)
        simp [busy, hrefused, RunnerStatus.busy] at hbusy
      · obtain rfl := hstopping pc (by simpa using hpc)
        trivial
    · obtain rfl := Option.some.inj hstep
      refine ⟨fun id hbusy => ?_, by simp, by simp [honce], fun pc hpc => ?_, by simp,
        by simp, hok.listeners⟩
      · exact howner.symm.trans (hok.owned id hbusy) ▸ rfl
      · obtain rfl := hstopping pc hpc
        trivial
  · cases hstep

private theorem startReleased_ok (hok : s.Ok) (hstep : s.startReleased = some s') : s'.Ok := by
  unfold startReleased at hstep
  split at hstep
  · rename_i hstarting
    obtain rfl := Option.some.inj hstep
    have hrun : s.run = none := hok.starting (by simp [hstarting])
    have honce : s.once = none := once_of_starting hok (by simp [hstarting])
    refine ⟨fun id hbusy => ?_, by simp, by simp [honce], fun pc hpc => ?_, hok.stopped,
      fun hset => ?_, hok.listeners⟩
    · simpa [owner, hstarting, hrun] using hok.owned id hbusy
    · obtain rfl := stopping_of_starting hok (by simp [hstarting]) hpc
      trivial
    · simpa [hrun, hstarting] using hok.signals hset
  · cases hstep

private theorem chained_ok (hok : s.Ok) (hstep : s.chained = some s') : s'.Ok := by
  unfold chained at hstep
  split at hstep
  · cases hstep
  · obtain rfl := Option.some.inj hstep
    apply Ok.start
    exact ⟨hok.owned, hok.starting, hok.once, hok.stopping, hok.stopped, hok.signals, hok.listeners⟩

private theorem stopResumed_ok (hok : s.Ok) (hstep : s.stopResumed = some s') : s'.Ok := by
  unfold stopResumed at hstep
  split at hstep
  · split at hstep
    · rename_i hstarting
      obtain rfl := Option.some.inj hstep
      exact stopOnce_ok hok (Option.isNone_iff_eq_none.mp hstarting)
    · cases hstep
  · rename_i hpc
    split at hstep
    · rename_i honce
      obtain rfl := Option.some.inj hstep
      exact stopRun_ok hok (hok.stopping _ hpc) (Option.isNone_iff_eq_none.mp honce)
    · cases hstep
  · cases hstep

private theorem runnerStopped_ok (hok : s.Ok) {ok : Bool} (hstep : s.runnerStopped ok = some s') :
    s'.Ok := by
  unfold runnerStopped at hstep
  split at hstep
  · rename_i runner hpc
    split at hstep
    · obtain rfl := Option.some.inj hstep
      refine ⟨fun id hbusy => ?_, hok.starting, hok.once, fun pc hpc' => ?_, hok.stopped, hok.signals,
        hok.listeners⟩
      · have hbusy : (s.stopRunner runner).busy id = true := hbusy
        simp only [busy_stopRunner, Bool.and_eq_true] at hbusy
        exact hok.owned id hbusy.2
      · obtain rfl := Option.some.inj hpc'
        exact hok.stopping _ hpc
    · obtain rfl := Option.some.inj hstep
      exact settleStop_ok hok
  · cases hstep

private theorem completionSettled_ok (hok : s.Ok) (hstep : s.completionSettled = some s') : s'.Ok := by
  unfold completionSettled at hstep
  split at hstep
  · rename_i hpc
    obtain ⟨hstarting, honce, hsignals⟩ := hok.stopping _ hpc
    split at hstep
    · rename_i hcompleted
      obtain rfl := Option.some.inj hstep
      have hidle : s.owner = none := by
        cases hrun : s.run with
        | none => simp [owner, hstarting, hrun]
        | some run =>
          have hsettled : run.supervise = .settled := by simpa [completed, hrun] using hcompleted
          simp [owner, hstarting, hrun, hsettled, Supervise.runner?]
      refine ⟨fun id hbusy => ?_, by simp, by simp [honce], fun pc hpc' => ?_, by simp, by simp [hsignals],
        hok.listeners⟩
      · have hbusy : s.busy id = true := hbusy
        simp [idle_of_owner hok hidle id] at hbusy
      · obtain rfl := Option.some.inj hpc'
        exact ⟨hstarting, honce, hsignals, rfl⟩
    · cases hstep
  · cases hstep

private theorem released_ok (hok : s.Ok) {ok : Bool} (hstep : s.released ok = some s') : s'.Ok := by
  unfold released at hstep
  split at hstep
  · obtain rfl := Option.some.inj hstep
    exact settleStop_ok hok
  · cases hstep

/-- A run goes on with another state of supervise, and perhaps of the runners. -/
private theorem setSupervise_ok (hok : s.Ok) {run run' : Run} {supervise : Supervise}
    {runners : Table RunnerId RunnerStatus} {nextRunner : RunnerId} (hrun : s.run = some run)
    (hstopped : run'.stopped = run.stopped)
    (howned : ∀ id, busy { s with runners, nextRunner } id = true →
      Supervise.runner? supervise = some id)
    (hlate : supervise = .settled ∨ (∃ runner, supervise = .stoppingLate runner) → run.stopped = true) :
    (setSupervise { s with runners, nextRunner } run' supervise).Ok := by
  have hstarting : s.starting = none := by
    cases hstarting : s.starting with
    | none => rfl
    | some starting => simpa [hrun] using hok.starting (by simp [hstarting])
  have honce : s.once = none := by
    cases honce : s.once with
    | none => rfl
    | some once => simpa [hrun] using (hok.once (by simp [honce])).2
  refine ⟨fun id hbusy => ?_, by simp [setSupervise, hstarting], by simp [setSupervise, honce],
    fun pc hpc => ?_, fun run'' hrun'' => ?_, by simp [setSupervise], hok.listeners⟩
  · simpa [owner, setSupervise, hstarting] using howned id hbusy
  · have hstop := hok.stopping pc hpc
    cases pc with
    | awaitingStart => trivial
    | awaitingOnce => exact hstarting
    | stoppingRunner | awaitingCompletion => exact hstop
    | releasing => simp [StopOk, hrun] at hstop
  · obtain rfl := Option.some.inj hrun''
    rw [hstopped]
    exact hlate

/-- The runner of a run, when one is busy. -/
private theorem owned_of_run (hok : s.Ok) {run : Run} (hrun : s.run = some run) {id : RunnerId}
    (hbusy : s.busy id = true) : Supervise.runner? run.supervise = some id := by
  have hstarting : s.starting = none := by
    cases hstarting : s.starting with
    | none => rfl
    | some starting => simpa [hrun] using hok.starting (by simp [hstarting])
  simpa [owner, hstarting, hrun] using hok.owned id hbusy

private theorem superviseResumed_ok (hok : s.Ok) (hstep : s.superviseResumed options = some s') :
    s'.Ok := by
  unfold superviseResumed at hstep
  split at hstep
  · rename_i run hrun
    split at hstep
    · rename_i runner hwatching
      split at hstep
      · rename_i failed hended
        -- The watched runner is the only one that could be busy, and it has ended.
        have hidle : ∀ id, s.busy id = false := by
          intro id
          cases hbusy : s.busy id with
          | false => rfl
          | true =>
            have hown := owned_of_run hok hrun hbusy
            simp only [hwatching, Supervise.runner?, Option.some.injEq] at hown
            simp [busy, ← hown, hended, RunnerStatus.busy] at hbusy
        have hnone : ∀ {supervise : Supervise} (id : RunnerId), s.busy id = true →
            Supervise.runner? supervise = some id := fun id hbusy => by simp [hidle id] at hbusy
        split at hstep
        · split at hstep
          · rename_i hstopped
            obtain rfl := Option.some.inj hstep
            exact setSupervise_ok hok hrun rfl hnone fun _ => hstopped
          · rename_i hstopped
            obtain rfl := Option.some.inj hstep
            have hclean := cleanupSignals_ok hok
            refine ⟨fun id hbusy => ?_, by simp, fun honce => ?_, fun pc hpc => ?_, by simp, by simp,
              hclean.listeners⟩
            · have hbusy : s.busy id = true := by simpa [busy] using hbusy
              simp [hidle id] at hbusy
            · exact ⟨(hclean.once honce).1, rfl⟩
            · have hstop := hclean.stopping pc hpc
              cases pc with
              | awaitingStart => trivial
              | awaitingOnce | stoppingRunner | awaitingCompletion => exact hstop
              | releasing => exact ⟨hstop.1, hstop.2.1, hstop.2.2.1, rfl⟩
        · obtain rfl := Option.some.inj hstep
          exact setSupervise_ok hok hrun rfl hnone (by simp)
      · cases hstep
    · cases hstep
  · cases hstep

private theorem waited_ok (hok : s.Ok) (hstep : s.waited = some s') : s'.Ok := by
  unfold waited at hstep
  split at hstep
  · rename_i run hrun
    split at hstep
    · rename_i hwaiting
      have hidle : ∀ id, s.busy id = false := by
        intro id
        cases hbusy : s.busy id with
        | false => rfl
        | true => simpa [hwaiting, Supervise.runner?] using owned_of_run hok hrun hbusy
      have hnone : ∀ {supervise : Supervise} (id : RunnerId), s.busy id = true →
          Supervise.runner? supervise = some id := fun id hbusy => by simp [hidle id] at hbusy
      split at hstep
      · rename_i hstopped
        obtain rfl := Option.some.inj hstep
        exact setSupervise_ok hok hrun rfl hnone fun _ => hstopped
      · obtain rfl := Option.some.inj hstep
        refine setSupervise_ok hok hrun rfl (fun id hbusy => ?_) (by simp)
        have hbusy : s.launch.busy id = true := hbusy
        simp only [busy_launch, hidle id, Bool.or_false, decide_eq_true_eq] at hbusy
        rw [hbusy]
        rfl
    · cases hstep
  · cases hstep

private theorem relaunched_ok (hok : s.Ok) (hstep : s.relaunched = some s') : s'.Ok := by
  unfold relaunched at hstep
  split at hstep
  · rename_i run hrun
    split at hstep
    · rename_i runner hrelaunching
      have howned : ∀ id, s.busy id = true → id = runner := by
        intro id hbusy
        have hown := owned_of_run hok hrun hbusy
        simpa [hrelaunching, Supervise.runner?, eq_comm] using hown
      split at hstep
      · cases hstep
      · cases hstep
      · rename_i hrefused
        have hnone : ∀ {supervise : Supervise} (id : RunnerId), s.busy id = true →
            Supervise.runner? supervise = some id := by
          intro supervise id hbusy
          simp [howned id hbusy, busy, hrefused, RunnerStatus.busy] at hbusy
        split at hstep
        · rename_i hstopped
          obtain rfl := Option.some.inj hstep
          exact setSupervise_ok hok hrun rfl hnone fun _ => hstopped
        · obtain rfl := Option.some.inj hstep
          exact setSupervise_ok hok hrun rfl hnone (by simp)
      · split at hstep
        · rename_i hstopped
          obtain rfl := Option.some.inj hstep
          refine setSupervise_ok hok hrun rfl (fun id hbusy => ?_) fun _ => hstopped
          have hbusy : (s.askStop runner).busy id = true := hbusy
          rw [busy_askStop] at hbusy
          rw [howned id hbusy]
          rfl
        · obtain rfl := Option.some.inj hstep
          refine setSupervise_ok hok hrun rfl (fun id hbusy => ?_) (by simp)
          rw [howned id hbusy]
          rfl
    · cases hstep
  · cases hstep

private theorem lateStopped_ok (hok : s.Ok) {ok : Bool}
    (hallowed : s.stopsLate (.lateStopped ok) = true) (hstep : s.lateStopped ok = some s') : s'.Ok := by
  unfold lateStopped at hstep
  split at hstep
  · rename_i run hrun
    split at hstep
    · rename_i runner hlate
      have hstopped : run.stopped = true := hok.stopped run hrun (.inr ⟨runner, hlate⟩)
      have howned : ∀ id, s.busy id = true → id = runner := by
        intro id hbusy
        have hown := owned_of_run hok hrun hbusy
        simpa [hlate, Supervise.runner?, eq_comm] using hown
      cases ok with
      | true =>
        obtain rfl := Option.some.inj hstep
        refine setSupervise_ok hok hrun rfl (fun id hbusy => ?_) fun _ => hstopped
        have hbusy : (s.stopRunner runner).busy id = true := hbusy
        simp only [busy_stopRunner, Bool.and_eq_true, decide_eq_true_eq] at hbusy
        exact absurd (howned id hbusy.2) hbusy.1
      | false =>
        obtain rfl := Option.some.inj hstep
        refine setSupervise_ok hok hrun rfl (fun id hbusy => ?_) fun _ => hstopped
        have hbusy : s.busy id = true := hbusy
        simp only [stopsLate, hrun, Option.bind_some, hlate, Supervise.runner?, Option.all_some,
          Bool.not_eq_true'] at hallowed
        rw [howned id hbusy, hallowed] at hbusy
        cases hbusy
    · cases hstep
  · cases hstep

private theorem onceResumed_ok (hok : s.Ok) (hstep : s.onceResumed = some s') : s'.Ok := by
  have hset : s.once ≠ none → ∀ once, Ok { s with once } := by
    intro honce once
    refine ⟨hok.owned, hok.starting, fun _ => hok.once honce, fun pc hpc => ?_, hok.stopped,
      hok.signals, hok.listeners⟩
    have hstop := hok.stopping pc hpc
    cases pc with
    | awaitingStart => trivial
    | awaitingOnce => exact hstop
    | stoppingRunner | awaitingCompletion | releasing => exact absurd hstop.2.1 honce
  unfold onceResumed at hstep
  split at hstep
  · rename_i honce
    exact Option.some.inj hstep ▸ hset (by simp [honce]) _
  · rename_i honce
    exact Option.some.inj hstep ▸ hset (by simp [honce]) _
  · rename_i honce
    exact Option.some.inj hstep ▸ hset (by simp [honce]) _
  · cases hstep

private theorem launched_ok (hok : s.Ok) {runner : RunnerId} {ok : Bool}
    (hstep : s.launched runner ok = some s') : s'.Ok := by
  unfold launched at hstep
  split at hstep
  · rename_i hlaunching
    obtain rfl := Option.some.inj hstep
    refine ⟨fun id hbusy => hok.owned id ?_, hok.starting, hok.once, hok.stopping, hok.stopped, hok.signals,
      hok.listeners⟩
    simp only [busy, Table.get?_insert] at hbusy ⊢
    split at hbusy
    · rename_i hid
      simp [hid, hlaunching, RunnerStatus.busy]
    · exact hbusy
  · cases hstep

private theorem ended_ok (hok : s.Ok) {runner : RunnerId} {failed : Bool}
    (hstep : s.ended runner failed = some s') : s'.Ok := by
  have hset : Ok { s with runners := s.runners.insert runner (.ended failed) } := by
    refine ⟨fun id hbusy => hok.owned id ?_, hok.starting, hok.once, hok.stopping, hok.stopped, hok.signals,
      hok.listeners⟩
    simp only [busy, Table.get?_insert] at hbusy ⊢
    split at hbusy
    · simp [RunnerStatus.busy] at hbusy
    · exact hbusy
  unfold ended at hstep
  split at hstep
  · obtain rfl := Option.some.inj hstep
    exact hset
  · obtain rfl := Option.some.inj hstep
    exact hset
  · cases hstep

theorem Ok.step (hok : s.Ok) (hallowed : s.stopsLate e = true) (hstep : s.step options e = some s') :
    s'.Ok := by
  cases e with
  | start => exact Option.some.inj hstep ▸ hok.start
  | stop => exact Option.some.inj hstep ▸ hok.stop
  | runOnce => exact Option.some.inj hstep ▸ hok.runOnce
  | signal =>
    simp only [Lifecycle.step] at hstep
    split at hstep
    · cases hstep
    · exact Option.some.inj hstep ▸ hok.stop
  | startBody => exact startBody_ok hok hstep
  | startResumed => exact startResumed_ok hok hstep
  | startReleased => exact startReleased_ok hok hstep
  | chained => exact chained_ok hok hstep
  | stopResumed => exact stopResumed_ok hok hstep
  | runnerStopped ok => exact runnerStopped_ok hok hstep
  | completionSettled => exact completionSettled_ok hok hstep
  | released ok => exact released_ok hok hstep
  | superviseResumed => exact superviseResumed_ok hok hstep
  | waited => exact waited_ok hok hstep
  | relaunched => exact relaunched_ok hok hstep
  | lateStopped ok => exact lateStopped_ok hok hallowed hstep
  | onceResumed => exact onceResumed_ok hok hstep
  | launched runner ok => exact launched_ok hok hstep
  | ended runner failed => exact ended_ok hok hstep

/-! ## After a stop -/

/-- `promise` has settled. -/
def promiseSettled (s : Lifecycle) : Bool := s.starting.isNone && s.once.isNone && s.completed

/-- A stop() has resolved with no start() queued, and start() was not called since. -/
def noteIdle (_ : Lifecycle) (e : LifecycleEvent) (s' : Lifecycle) (idle : Bool) : Bool :=
  match e with
  | .start => false
  | .released true => s'.ready = 0
  | _ => idle

/-- No run, no startup and no start() that waits for a shutdown. -/
def Quiet (s : Lifecycle) : Prop := s.run = none ∧ s.starting = none ∧ s.queued = 0 ∧ s.ready = 0

private theorem quiet_cleanup (hquiet : s.Quiet) : s.cleanupSignals.Quiet := by
  simpa [Quiet] using hquiet

private theorem quiet_stopRun (hquiet : s.Quiet) : s.stopRun.Quiet := by
  have hclean := quiet_cleanup hquiet
  unfold stopRun stopCurrent
  split
  · exact hclean
  · rename_i run hrun
    simp [hquiet.1] at hrun

private theorem quiet_stopOnce (hquiet : s.Quiet) : s.stopOnce.Quiet := by
  unfold stopOnce
  split
  · exact hquiet
  · exact quiet_stopRun hquiet

private theorem quiet_stop (hquiet : s.Quiet) : s.stop.1.Quiet := by
  have hcases := stop_cases s
  generalize s.stop.1 = s' at hcases ⊢
  cases hcases with
  | shared => exact hquiet
  | startup => exact hquiet
  | stops => exact quiet_stopOnce hquiet

private theorem quiet_settleStop (hquiet : s.Quiet) {ok : Bool} : (s.settleStop ok).Quiet := by
  have hclean := quiet_cleanup hquiet
  refine ⟨hclean.1, hclean.2.1, rfl, ?_⟩
  simp [settleStop, hquiet.2.2.1, hquiet.2.2.2]

/-- Only start() ends the quiet. -/
private theorem quiet_step (hquiet : s.Quiet) (hstart : e ≠ .start) (hstep : s.step options e = some s') :
    s'.Quiet := by
  obtain ⟨hrun, hstarting, hqueued, hready⟩ := id hquiet
  cases e with
  | start => exact absurd rfl hstart
  | stop => exact Option.some.inj hstep ▸ quiet_stop hquiet
  | runOnce =>
    obtain rfl := Option.some.inj hstep
    unfold Lifecycle.runOnce
    split
    · exact hquiet
    · exact hquiet
  | signal =>
    simp only [Lifecycle.step] at hstep
    split at hstep
    · cases hstep
    · exact Option.some.inj hstep ▸ quiet_stop hquiet
  | startBody => simp [Lifecycle.step, Lifecycle.startBody, hstarting] at hstep
  | startResumed => simp [Lifecycle.step, Lifecycle.startResumed, hstarting] at hstep
  | startReleased => simp [Lifecycle.step, Lifecycle.startReleased, hstarting] at hstep
  | chained => simp [Lifecycle.step, Lifecycle.chained, hready] at hstep
  | stopResumed =>
    simp only [Lifecycle.step, Lifecycle.stopResumed] at hstep
    split at hstep
    · split at hstep
      · exact Option.some.inj hstep ▸ quiet_stopOnce hquiet
      · cases hstep
    · split at hstep
      · exact Option.some.inj hstep ▸ quiet_stopRun hquiet
      · cases hstep
    · cases hstep
  | runnerStopped ok =>
    simp only [Lifecycle.step, Lifecycle.runnerStopped] at hstep
    split at hstep
    · split at hstep
      · exact Option.some.inj hstep ▸ hquiet
      · exact Option.some.inj hstep ▸ quiet_settleStop hquiet
    · cases hstep
  | completionSettled =>
    simp only [Lifecycle.step, Lifecycle.completionSettled] at hstep
    split at hstep
    · split at hstep
      · exact Option.some.inj hstep ▸ ⟨rfl, hquiet.2⟩
      · cases hstep
    · cases hstep
  | released ok =>
    simp only [Lifecycle.step, Lifecycle.released] at hstep
    split at hstep
    · exact Option.some.inj hstep ▸ quiet_settleStop hquiet
    · cases hstep
  | superviseResumed => simp [Lifecycle.step, Lifecycle.superviseResumed, hrun] at hstep
  | waited => simp [Lifecycle.step, Lifecycle.waited, hrun] at hstep
  | relaunched => simp [Lifecycle.step, Lifecycle.relaunched, hrun] at hstep
  | lateStopped ok => simp [Lifecycle.step, Lifecycle.lateStopped, hrun] at hstep
  | onceResumed =>
    simp only [Lifecycle.step, Lifecycle.onceResumed] at hstep
    split at hstep
    · exact Option.some.inj hstep ▸ hquiet
    · exact Option.some.inj hstep ▸ hquiet
    · exact Option.some.inj hstep ▸ hquiet
    · cases hstep
  | launched runner ok =>
    simp only [Lifecycle.step, Lifecycle.launched] at hstep
    split at hstep
    · exact Option.some.inj hstep ▸ hquiet
    · cases hstep
  | ended runner failed =>
    simp only [Lifecycle.step, Lifecycle.ended] at hstep
    split at hstep
    · exact Option.some.inj hstep ▸ hquiet
    · exact Option.some.inj hstep ▸ hquiet
    · cases hstep

private theorem quiet_of_idle (hok : s.Ok) {idle : Bool} (hidle : idle = true → s.Quiet)
    (hstep : s.step options e = some s') (hidle' : noteIdle s e s' idle = true) : s'.Quiet := by
  cases e with
  | start => cases hidle'
  | released ok =>
    cases ok with
    | false => exact quiet_step (hidle hidle') (by simp) hstep
    | true =>
      simp only [noteIdle, decide_eq_true_eq] at hidle'
      simp only [Lifecycle.step, Lifecycle.released] at hstep
      split at hstep
      · rename_i hpc
        obtain ⟨hstarting, -, -, hrun⟩ := hok.stopping _ hpc
        obtain rfl := Option.some.inj hstep
        exact ⟨by simpa [settleStop] using hrun, by simpa [settleStop] using hstarting, rfl, hidle'⟩
      · cases hstep
  | stop | runOnce | signal | startBody | startResumed | startReleased | chained | stopResumed
  | runnerStopped | completionSettled | superviseResumed | waited | relaunched | lateStopped
  | onceResumed | launched | ended => exact quiet_step (hidle hidle') (by simp) hstep

end Lifecycle

/-! ## Exclusivity -/

/-- The lifecycle, and whether it is idle after a stop. -/
def idleLifecycle (options : LifecycleOptions) : TransitionSystem (Lifecycle × Bool) LifecycleEvent :=
  (lifecycle options).observe false Lifecycle.noteIdle

structure Exclusive (options : LifecycleOptions) (s : Lifecycle) (idle : Bool) : Prop where
  one : ∀ id id', s.busy id = true → s.busy id' = true → id = id'
  once : s.once = some .running → ∀ id, s.busy id = false
  release : s.stopping = some .releasing ∨ s.starting = some .releasing → ∀ id, s.busy id = false
  /-- Also a runner whose restart was in flight when stop() was called. -/
  stops : ∀ ok s', s.step options (.released ok) = some s' → ∀ id, s'.busy id = false
  idle : idle = true → s.run = none ∧ s.starting = none ∧ ∀ id, s.busy id = false
  pending : ∀ run, s.run = some run → run.stopped = false → s.promiseSettled = false
  settled : s.promiseSettled = true → ∀ id, s.busy id = false
  listeners : s.run = none → s.starting = none → s.listeners = 0

theorem Lifecycle.Ok.exclusive {options : LifecycleOptions} {s : Lifecycle} {idle : Bool} (hok : s.Ok)
    (hidle : idle = true → s.Quiet) : Exclusive options s idle where
  one id id' hbusy hbusy' := Option.some.inj ((hok.owned id hbusy).symm.trans (hok.owned id' hbusy'))
  once honce := by
    obtain ⟨hstarting, hrun⟩ := hok.once (by simp [honce])
    exact idle_of_owner hok (by simp [owner, hstarting, hrun])
  release hrelease := by
    rcases hrelease with hpc | hstarting
    · obtain ⟨hstarting, -, -, hrun⟩ := hok.stopping _ hpc
      exact idle_of_owner hok (by simp [owner, hstarting, hrun])
    · have hrun := hok.starting (by simp [hstarting])
      exact idle_of_owner hok (by simp [owner, hstarting, hrun])
  stops ok s' hstep := by
    simp only [Lifecycle.step, Lifecycle.released] at hstep
    split at hstep
    · rename_i hpc
      obtain ⟨hstarting, -, -, hrun⟩ := hok.stopping _ hpc
      obtain rfl := Option.some.inj hstep
      intro id
      have hidle := idle_of_owner hok (by simp [owner, hstarting, hrun]) id
      simpa [busy, settleStop] using hidle
    · cases hstep
  idle hset := by
    obtain ⟨hrun, hstarting, -, -⟩ := hidle hset
    exact ⟨hrun, hstarting, idle_of_owner hok (by simp [owner, hstarting, hrun])⟩
  pending run hrun hstopped := by
    cases hsettled : s.promiseSettled with
    | false => rfl
    | true =>
      simp only [promiseSettled, completed, hrun, Option.all_some, Bool.and_eq_true,
        decide_eq_true_eq] at hsettled
      simp [hok.stopped run hrun (.inl hsettled.2)] at hstopped
  settled hsettled := by
    simp only [promiseSettled, completed, Bool.and_eq_true, Option.isNone_iff_eq_none] at hsettled
    obtain ⟨⟨hstarting, -⟩, hcompleted⟩ := hsettled
    refine idle_of_owner hok ?_
    cases hrun : s.run with
    | none => simp [owner, hstarting, hrun]
    | some run =>
      have hsupervise : run.supervise = .settled := by simpa [hrun] using hcompleted
      simp [owner, hstarting, hrun, hsupervise, Supervise.runner?]
  listeners hrun hstarting := by
    cases hset : s.removeSignals with
    | false => simp [hok.listeners, hset]
    | true => simpa [hrun, hstarting] using hok.signals hset

theorem runner_exclusive {options : LifecycleOptions} {p : Lifecycle × Bool}
    (hreach : (idleLifecycle options).ReachableWith (fun p e => p.1.stopsLate e = true) p) :
    Exclusive options p.1 p.2 := by
  have hok : p.1.Ok ∧ (p.2 = true → p.1.Quiet) := by
    refine hreach.invariant (I := fun p => p.1.Ok ∧ (p.2 = true → p.1.Quiet)) ?_ ?_
    · rintro ⟨s, idle⟩ ⟨hs, rfl⟩
      obtain rfl : s = Lifecycle.initial := hs
      refine ⟨⟨?_, ?_, ?_, ?_, ?_, ?_, ?_⟩, by simp⟩
      all_goals simp [Lifecycle.initial, Lifecycle.busy]
    · rintro ⟨s, idle⟩ e ⟨s', idle'⟩ - ⟨hok, hidle⟩ hallowed hstep
      obtain ⟨hstep, hnote⟩ := TransitionSystem.observe_step_iff.mp hstep
      refine ⟨hok.step hallowed hstep, fun hidle' => ?_⟩
      exact Lifecycle.quiet_of_idle hok hidle hstep (hnote.symm.trans hidle')
  exact hok.1.exclusive hok.2

namespace LifecycleTrace

def options : LifecycleOptions := ⟨true, true⟩

/-- A runner fails and is restarted; stop() is called while the restart is in flight. -/
def stopDuringRestart : List LifecycleEvent :=
  [.start, .startBody, .launched 0 true, .startResumed, .ended 0 true, .superviseResumed, .waited, .stop,
    .launched 1 true, .relaunched]

/-- The restarted runner's stop() rejects. -/
def lateStopRejects : List LifecycleEvent := stopDuringRestart ++ [.lateStopped false, .completionSettled]

/-- The worker is started again. -/
def startedAgain : List LifecycleEvent := lateStopRejects ++ [.released true, .start, .startBody]

end LifecycleTrace

theorem runner_exclusive_restart : ∃ p : Lifecycle × Bool, p.1.busy 1 = true ∧
    Exclusive LifecycleTrace.options p.1 p.2 := by
  have hinit : (idleLifecycle LifecycleTrace.options).Init (.initial, false) := ⟨rfl, rfl⟩
  obtain ⟨p, hreach, hp⟩ := TransitionSystem.exists_reachableWith_of_runWith
    LifecycleTrace.stopDuringRestart (fun p => p.1.busy 1)
    (fun (p : Lifecycle × Bool) e (hc : p.1.stopsLate e = true) => hc) hinit (by decide)
  exact ⟨p, hp, runner_exclusive hreach⟩

/-- Resources are released beside a live runner, and a second one starts beside it. -/
theorem runner_not_exclusive :
    (∃ s, (lifecycle LifecycleTrace.options).Reachable s ∧ s.stopping = some .releasing ∧
      s.busy 1 = true) ∧
    ∃ s, (lifecycle LifecycleTrace.options).Reachable s ∧ s.busy 1 = true ∧ s.busy 2 = true := by
  have hinit : (lifecycle LifecycleTrace.options).Init .initial := rfl
  constructor
  · obtain ⟨s, hreach, hs⟩ := TransitionSystem.exists_reachable_of_run LifecycleTrace.lateStopRejects
      (fun s => s.stopping = some .releasing && s.busy 1) hinit (by decide)
    simp only [Bool.and_eq_true, decide_eq_true_eq] at hs
    exact ⟨s, hreach, hs⟩
  · obtain ⟨s, hreach, hs⟩ := TransitionSystem.exists_reachable_of_run LifecycleTrace.startedAgain
      (fun s => s.busy 1 && s.busy 2) hinit (by decide)
    simp only [Bool.and_eq_true] at hs
    exact ⟨s, hreach, hs⟩

end BetterGraphileWorker
