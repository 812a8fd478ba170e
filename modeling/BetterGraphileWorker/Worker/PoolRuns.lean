-- SUMMARY: A worker pool is all or nothing, as long as its workers are stopped together.
import BetterGraphileWorker.Worker.PoolSteps

/-!
# Runs of a worker pool

The invariant holds along every run that stops the workers together and starts none between the
end of a runner and the stop of the others. `pool_split` is a run of start() and stop() calls
alone that leaves one of two workers running.
-/

namespace BetterGraphileWorker

namespace WorkerPool

section
variable {n : ℕ} {s s' : State n} {i : Fin n} {c : Start n} {call : ℕ} {runner : RunnerId}

/-! ## Runs -/

theorem inv_initial : Inv (⟨fun _ => .initial, fun _ => .resolved, ∅, 0, []⟩ : State n) where
  worker _ := workerOk_initial
  below := nofun
  starting _ hne := absurd rfl hne
  member := nofun
  phase := nofun
  run := nofun
  watched := nofun
  pending := nofun
  rejected := nofun
  due _ _ hdue := absurd hdue List.not_mem_nil
  call := nofun

theorem Inv.exec (h : Inv s) {e : Event n} (hcareful : Careful s e) (hstep : s.exec e = some s') :
    Inv s' := by
  cases e with
  | start =>
    obtain rfl := Option.some.inj hstep
    exact h.start hcareful
  | stop =>
    obtain rfl := Option.some.inj hstep
    exact h.stopAll hcareful
  | chained call i =>
    simp only [State.exec] at hstep
    split at hstep
    · rename_i c hcall
      split at hstep
      · rename_i hready
        obtain rfl := Option.some.inj hstep
        exact h.chained hcareful hcall hready
      · cases hstep
    · cases hstep
  | allSettled call =>
    simp only [State.exec] at hstep
    split at hstep
    · rename_i members hcall
      split at hstep
      · rename_i hsettled
        split at hstep
        · rename_i hfailed
          obtain rfl := Option.some.inj hstep
          exact h.cleaning (hcareful ⟨_, hcall, hfailed⟩) hcall hsettled
        · rename_i hstarted
          obtain rfl := Option.some.inj hstep
          exact h.resolved hcall hsettled fun i hi => hstarted ⟨i, hi⟩
      · cases hstep
    · cases hstep
  | cleaned call =>
    simp only [State.exec] at hstep
    split at hstep
    · rename_i members pending hcall
      split at hstep
      · rename_i hpending
        obtain rfl := Option.some.inj hstep
        exact h.cleaned hcall hpending
      · cases hstep
    · cases hstep
  | watch w =>
    simp only [State.exec] at hstep
    split at hstep
    · split at hstep
      · obtain rfl := Option.some.inj hstep
        exact h.watch hcareful
      · cases hstep
    · cases hstep
  | startBody i =>
    obtain ⟨l, hl, rfl⟩ := Option.map_eq_some_iff.mp hstep
    obtain ⟨hok, hframe⟩ := startBody_frame (h.worker i) hl
    exact h.setWorker hok hframe
  | launched i runner ok =>
    obtain ⟨l, hl, rfl⟩ := Option.map_eq_some_iff.mp hstep
    obtain ⟨hok, hframe⟩ := launched_frame (h.worker i) hl
    exact h.setWorker hok hframe
  | startResumed i =>
    simp only [State.exec] at hstep
    split at hstep
    · rename_i l hl
      obtain ⟨hok, ⟨hrun, hframe⟩ | ⟨runner, hstarting, hrun, heq, halive⟩⟩ :=
        startResumed_cases (h.worker i) hl
      · simp only [hrun, Option.some.injEq] at hstep
        subst hstep
        exact h.setWorker hok hframe
      · have hnew : l.run = some ⟨false, some runner, .watching runner⟩ := by rw [heq]
        simp only [hnew, Option.some.injEq] at hstep
        subst hstep
        exact h.launched hok hstarting heq halive
    · cases hstep
  | startReleased i =>
    obtain ⟨l, hl, rfl⟩ := Option.map_eq_some_iff.mp hstep
    obtain ⟨hok, hne, hrun, heq, hidle⟩ := startReleased_cases (h.worker i) hl
    exact h.unstarted hok hne hrun heq hidle
  | stopResumed i =>
    obtain ⟨l, hl, rfl⟩ := Option.map_eq_some_iff.mp hstep
    obtain ⟨hok, hframe⟩ := stopResumed_frame (h.worker i) hl
    exact h.setWorker hok hframe
  | runnerStopped i =>
    simp only [State.exec] at hstep
    split at hstep
    · rename_i runner hpc
      split at hstep
      · rename_i failed hended
        obtain ⟨l, hl, rfl⟩ := Option.map_eq_some_iff.mp hstep
        obtain ⟨hok, hframe⟩ := runnerStopped_frame (h.worker i) hpc hended hl
        exact h.setWorker hok hframe
      · cases hstep
    · cases hstep
  | completionSettled i =>
    obtain ⟨l, hl, rfl⟩ := Option.map_eq_some_iff.mp hstep
    obtain ⟨hok, hframe⟩ := completionSettled_frame (h.worker i) hl
    exact h.setWorker hok hframe
  | released i ok =>
    obtain ⟨l, hl, rfl⟩ := Option.map_eq_some_iff.mp hstep
    obtain ⟨hok, hstop, hnone, hrun, hnone', -, hgone, hrunners, hnext⟩ :=
      released_cases (h.worker i) hl
    exact h.released hok hstop hnone hrun hnone' hgone hrunners hnext
  | ended i runner failed =>
    simp only [State.exec] at hstep
    split at hstep
    · cases hstep
    · rename_i hasked
      obtain ⟨l, hl, rfl⟩ := Option.map_eq_some_iff.mp hstep
      have hasked : failed = false → (s.workers i).runners.get? runner = some (.alive true) := by
        intro hfailed
        apply by_contra
        intro hnot
        exact hasked ⟨hfailed, hnot⟩
      obtain ⟨hok, hframe⟩ := ended_frame (h.worker i) hasked hl
      exact h.setWorker hok hframe
  | superviseResumed i =>
    simp only [State.exec] at hstep
    split at hstep
    · rename_i stopped runner supervise hrun
      obtain ⟨l, hl, rfl⟩ := Option.map_eq_some_iff.mp hstep
      obtain ⟨hok, hwatching, hnone, hnone', hstopping, hrunners, hnext, hidle, hcases⟩ :=
        superviseResumed_cases (h.worker i) hrun rfl hl
      split
      · refine h.completed hok hrun rfl hwatching hnone hnone' hstopping hrunners hnext hidle
          (.inl ⟨rfl, rfl⟩) ?_
        exact hcases.imp (fun hgone => ⟨rfl, hgone.2.2⟩) id
      · rename_i hresolved
        refine h.completed hok hrun rfl hwatching hnone hnone' hstopping hrunners hnext hidle
          (.inr ⟨rfl, rfl⟩) (.inr ?_)
        rcases hcases with ⟨-, hended, -⟩ | hstopped
        · exact absurd hended hresolved
        · exact hstopped
    · cases hstep

theorem Inv.reachable (hreach : (system n).ReachableWith Careful s) : Inv s := by
  refine hreach.invariant (I := Inv) ?_ ?_
  · rintro s rfl
    exact inv_initial
  · intro s e s' _ h hcareful hstep
    exact h.exec hcareful hstep

/-! ## All or nothing -/

/-- A runner of the worker is alive. -/
def State.Alive (s : State n) (i : Fin n) : Prop := ∃ runner, (s.workers i).busy runner = true

/-- No start() that has settled is still to be answered. -/
private theorem State.Settled.not_ended (hsettled : s.Settled) : ¬s.Ended i runner := by
  rintro (hdue | ⟨-, ⟨run, hrun, hrunner, hended⟩ | ⟨-, -, -, call, c, hcall, hphase⟩⟩)
  · exact hsettled.watchers i _ hdue
  · have hbusy := hsettled.runs i run runner hrun hrunner
    simp [Lifecycle.busy, hended, RunnerStatus.busy] at hbusy
  · rcases hsettled.starts call c hcall with heq | heq <;> simp [hphase] at heq

/-- Once all promises have settled, a start() that has lost one runner has none left. -/
private theorem Inv.lost_all (h : Inv s) (hsettled : s.Settled) (hcall : s.starts.get? call = some c)
    (hlost : ¬s.Holds i (c.members i)) (j : Fin n) : ¬s.Holds j (c.members j) := by
  rcases h.call call c hcall i hlost with hall | ⟨hphase, -⟩ | ⟨runner, -, -, hend⟩
  · exact hall j
  · rcases hsettled.starts call c hcall with heq | heq <;> simp [hphase] at heq
  · exact absurd hend hsettled.not_ended

private theorem Inv.all_or_none (h : Inv s) (hsettled : s.Settled) {j : Fin n} (hi : s.Alive i) :
    s.Alive j := by
  obtain ⟨runner, hbusy⟩ := hi
  rcases (h.worker i).busy_cases hbusy with hstarting | ⟨-, run, hrun, hrunner, -⟩
  · simp [hsettled.starting i] at hstarting
  · obtain ⟨call, c, hcall, hmember⟩ := h.run i run hrun
    rw [hrunner] at hmember
    have hholds : s.Holds i (c.members i) := by
      rw [hmember]
      exact ⟨hbusy, hsettled.stopping i⟩
    have hj : s.Holds j (c.members j) := by
      apply by_contra
      intro hlost
      exact h.lost_all hsettled hcall hlost i hholds
    cases hcase : c.members j with
    | started id =>
      rw [hcase] at hj
      cases id with
      | none => exact hj.elim
      | some id => exact ⟨id, hj.1⟩
    | failed =>
      rw [hcase] at hj
      exact hj.elim
    | starting | queued | ready =>
      have hphase := phase_of_unsettled h hcall (i := j) (by simp [hcase, Member.settled])
      rcases hsettled.starts call c hcall with heq | heq <;> simp [hphase] at heq

/--
In every run that stops the workers together and runs no start() before the end of a runner is
answered: once all promises have settled, all runners are alive or none is; a start() that rejected
has no runner alive; a start() one of whose runners has ended has none left; and a watcher that is
about to stop the pool stops no runner of a start() that does not share the runner that ended.
-/
theorem pool_all_or_nothing (hreach : (system n).ReachableWith Careful s) :
    (s.Settled → (∀ i, s.Alive i) ∨ ∀ i, ¬s.Alive i) ∧
      (∀ call c, s.starts.get? call = some c → c.phase = .rejected →
        ∀ i runner, c.members i = .started (some runner) → (s.workers i).busy runner = false) ∧
      (s.Settled → ∀ call c, s.starts.get? call = some c → ∀ i j runner other,
        c.members i = .started (some runner) → (s.workers i).busy runner = false →
        c.members j = .started (some other) → (s.workers j).busy other = false) ∧
      ∀ i runner, ⟨i, .due (some runner)⟩ ∈ s.watchers → ∀ call c, s.starts.get? call = some c →
        c.phase = .resolved → ∀ j other, c.members j = .started (some other) →
        (s.workers j).busy other = true → (s.workers j).stopping = none →
          c.members i = .started (some runner) := by
  have h := Inv.reachable hreach
  refine ⟨fun hsettled => ?_, fun call c hcall hphase i runner hmember => ?_,
    fun hsettled call c hcall i j runner other hmember hdead hother => ?_,
    fun i runner hdue call c hcall hphase j other hother hbusy hstopping => ?_⟩
  · cases Classical.em (∃ i, s.Alive i) with
    | inl hsome =>
      obtain ⟨i, hi⟩ := hsome
      exact .inl fun j => h.all_or_none hsettled hi
    | inr hnone => exact .inr fun i hi => hnone ⟨i, hi⟩
  · have hok := h.phase call c hcall
    unfold State.PhaseOk at hok
    rw [hphase] at hok
    exact (hok i).2 runner hmember
  · have hlost : ¬s.Holds i (c.members i) := by
      rw [hmember]
      intro hholds
      exact absurd hholds.1 (by simp [hdead])
    have hnot := h.lost_all hsettled hcall hlost j
    rw [hother] at hnot
    cases hbusy : (s.workers j).busy other with
    | false => rfl
    | true => exact absurd ⟨hbusy, hsettled.stopping j⟩ hnot
  · -- Worker `i` has no runner, so the start() has lost it, and only this end can be the reason.
    obtain ⟨hstarting, hrejected⟩ := h.due i runner hdue
    obtain ⟨hidle, hgone⟩ := h.rejected i runner hrejected hstarting
    have hok := h.phase call c hcall
    unfold State.PhaseOk at hok
    rw [hphase] at hok
    obtain ⟨id, hmember⟩ := hok i
    have hlost : ¬s.Holds i (c.members i) := by
      rw [hmember]
      cases id <;> simp [State.Holds, hidle]
    rcases h.call call c hcall i hlost with hall | ⟨heq, -⟩ | ⟨runner', hmember', hstop, hend⟩
    · refine absurd ?_ (hall j)
      rw [hother]
      exact ⟨hbusy, hstopping⟩
    · simp [hphase] at heq
    · rw [hmember']
      rcases hend with hdue' | ⟨-, ⟨run, hrun, -⟩ | ⟨-, -, hrejected', -⟩⟩
      · have heq := (h.due i runner' hdue').2
        rw [hrejected] at heq
        cases heq
        rfl
      · rw [hgone hstop] at hrun
        cases hrun
      · rw [hrejected] at hrejected'
        cases hrejected'
        rfl

end

/-! ## Concrete runs -/

namespace PoolTrace

def started : List (Event 2) :=
  [.start, .startBody 0, .launched 0 0 true, .startResumed 0, .startBody 1, .launched 1 0 true,
    .startResumed 1, .allSettled 0]

/-- The shutdown of a worker whose runner ends when it is asked to. -/
def shutdown (i : Fin 2) (runner : RunnerId) : List (Event 2) :=
  [.ended i runner false, .superviseResumed i, .runnerStopped i, .completionSettled i, .released i true]

/-- The runner of worker 0 ends on its own, and the watcher stops worker 1. -/
def stoppedByWatcher : List (Event 2) :=
  started ++ [.ended 0 0 true, .superviseResumed 0, .watch ⟨0, .due (some 0)⟩, .released 0 true] ++
    shutdown 1 0

/-- stop(), start() and stop() again; worker 0 is down before the start(), worker 1 after the stop(). -/
def split : List (Event 2) :=
  started ++ [.stop] ++ shutdown 0 0 ++ [.start, .stop, .startBody 0, .launched 0 1 true,
    .startResumed 0, .stopResumed 0] ++ shutdown 0 1 ++ shutdown 1 0 ++
    [.chained 1 1, .startBody 1, .launched 1 1 true, .startResumed 1, .allSettled 1]

def settled (s : State 2) : Bool :=
  (!s.starts.any fun _ c => match c.phase with
    | .resolved | .rejected => false
    | .starting | .cleaning _ => true) &&
  (s.watchers.all fun w => match w.awaits with
    | .due _ => false
    | .starting | .completion => true) &&
  decide (∀ i, (s.workers i).starting = none ∧ (s.workers i).stopping = none ∧
    ((s.workers i).run.all fun run => run.runner.all (s.workers i).busy) = true)

def alive (s : State 2) (i : Fin 2) : Bool := (s.workers i).runners.any fun _ status => status.busy

/-- start() is the first call, and no start() is queued. -/
def careful (s : State 2) : Event 2 → Bool
  | .start => s.watchers.isEmpty && s.starts.rows.isEmpty && decide (∀ i, (s.workers i).run.isNone)
  | .chained _ _ => false
  | .stop | .watch _ | .allSettled _ =>
    !s.starts.any fun _ c => decide (∃ i, c.members i = .queued ∨ c.members i = .ready)
  | _ => true

end PoolTrace

variable {s : State 2}

private theorem settled_of_trace (h : PoolTrace.settled s = true) : s.Settled := by
  simp only [PoolTrace.settled, Bool.and_eq_true, Bool.not_eq_true', Table.any_eq_false_iff,
    List.all_eq_true, decide_eq_true_eq] at h
  obtain ⟨⟨hstarts, hwatchers⟩, hworkers⟩ := h
  refine ⟨fun call c hcall => ?_, fun i runner hdue => ?_, fun i => (hworkers i).1,
    fun i => (hworkers i).2.1, fun i run runner hrun hrunner => ?_⟩
  · have hphase := hstarts call c hcall
    cases hcase : c.phase with
    | resolved => exact .inl rfl
    | rejected => exact .inr rfl
    | starting | cleaning pending => simp [hcase] at hphase
  · have hw := hwatchers _ hdue
    cases hw
  · have hbusy := (hworkers i).2.2
    simpa [hrun, hrunner] using hbusy

private theorem alive_iff_trace {i : Fin 2} : s.Alive i ↔ PoolTrace.alive s i = true := by
  simp only [State.Alive, PoolTrace.alive, Lifecycle.busy, Table.any_iff, Option.any_eq_true]

private theorem careful_of_trace {e : Event 2} (h : PoolTrace.careful s e = true) : Careful s e := by
  have htogether : (!s.starts.any fun _ c => decide (∃ i, c.members i = .queued ∨ c.members i = .ready)) =
      true → s.Together := by
    intro hnone
    simp only [Bool.not_eq_true', Table.any_eq_false_iff, decide_eq_false_iff_not, not_exists,
      not_or] at hnone
    exact .inr hnone
  cases e with
  | start =>
    simp only [PoolTrace.careful, Bool.and_eq_true, List.isEmpty_iff, decide_eq_true_eq] at h
    obtain ⟨⟨hwatchers, hstarts⟩, hruns⟩ := h
    rintro i runner hstopping (hdue | ⟨-, ⟨run, hrun, -⟩ | ⟨-, -, -, call, c, hcall, -⟩⟩)
    · simp [hwatchers] at hdue
    · have hi := hruns i
      simp [hrun] at hi
    · simp [Table.get?, hstarts] at hcall
  | chained => cases h
  | stop => exact htogether h
  | watch => exact htogether h
  | allSettled => exact fun _ => htogether h
  | _ => trivial

/-- A runner ends on its own: the watcher of its start() stops the other one. -/
theorem pool_all_or_nothing_stopped : ∃ s : State 2, s.Settled ∧ s.starts.rows.length = 1 ∧
    ((∀ i, s.Alive i) ∨ ∀ i, ¬s.Alive i) := by
  have hinit : (system 2).Init ⟨fun _ => .initial, fun _ => .resolved, ∅, 0, []⟩ := rfl
  obtain ⟨s, hreach, hs⟩ := (system 2).exists_reachableWith_of_runWith (c := PoolTrace.careful)
    PoolTrace.stoppedByWatcher (fun s => PoolTrace.settled s && s.starts.rows.length = 1)
    (fun _ _ => careful_of_trace) hinit (by decide)
  simp only [Bool.and_eq_true, decide_eq_true_eq] at hs
  have hsettled := settled_of_trace hs.1
  exact ⟨s, hsettled, hs.2, (pool_all_or_nothing hreach).1 hsettled⟩

/-- stop(), start() and stop() leave one runner alive if the workers shut down at different speeds. -/
theorem pool_split : ¬∀ (n : ℕ) (s : State n), (system n).Reachable s → s.Settled →
    (∀ i, s.Alive i) ∨ ∀ i, ¬s.Alive i := by
  intro hclaim
  have hinit : (system 2).Init ⟨fun _ => .initial, fun _ => .resolved, ∅, 0, []⟩ := rfl
  obtain ⟨s, hreach, hs⟩ := (system 2).exists_reachable_of_run PoolTrace.split
    (fun s => PoolTrace.settled s && (PoolTrace.alive s 1 && !PoolTrace.alive s 0)) hinit (by decide)
  simp only [Bool.and_eq_true, Bool.not_eq_true'] at hs
  obtain ⟨hsettled, hup, hdown⟩ := hs
  rcases hclaim 2 s hreach (settled_of_trace hsettled) with hall | hnone
  · have hzero := alive_iff_trace.mp (hall 0)
    rw [hdown] at hzero
    cases hzero
  · exact hnone 1 (alive_iff_trace.mpr hup)

end WorkerPool

end BetterGraphileWorker
