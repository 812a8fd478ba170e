-- SUMMARY: What every run of a worker pool keeps, and the steps of its own start() and stop().
import BetterGraphileWorker.Worker.PoolWorker

/-!
# The invariant of a worker pool

A start() of the pool holds on to a worker while its runner is alive, starting or queued, and
nobody stops it. What is left of a start() either all goes down together, or somebody is about to
stop it: the start() itself, whose cleanup is due, or a watcher.
-/

namespace BetterGraphileWorker

namespace WorkerPool

section
variable {n : ℕ}

/-! ## What the runs must respect -/

/--
A runner of the worker ended on its own, and nobody has stopped the workers since: a watcher is
about to, supervise has not seen the end, or a start() in flight has still to look at the promise.
-/
def State.Ended (s : State n) (i : Fin n) (runner : RunnerId) : Prop :=
  ⟨i, .due (some runner)⟩ ∈ s.watchers ∨ (s.workers i).stopping = none ∧
    ((∃ run, (s.workers i).run = some run ∧ run.runner = some runner ∧
        (s.workers i).runners.get? runner = some (.ended true)) ∨
      (s.workers i).run = none ∧ (s.workers i).starting = none ∧ s.completions i = .rejected runner ∧
        ∃ call c, s.starts.get? call = some c ∧ c.phase = .starting)

/-- Every worker is shutting down, or no start() is queued behind a shutdown. -/
def State.Together (s : State n) : Prop :=
  (∀ i, (s.workers i).stopping ≠ none) ∨
    ∀ call c, s.starts.get? call = some c → ∀ i, c.members i ≠ .queued ∧ c.members i ≠ .ready

/--
All workers are stopped together, and no start() runs between the end of a runner and the stop of
the others.
-/
def Careful (s : State n) : Event n → Prop
  | .start => ∀ i runner, (s.workers i).stopping = none → ¬s.Ended i runner
  | .chained _ i => ∀ runner, ¬s.Ended i runner
  | .stop | .watch _ => s.Together
  | .allSettled call =>
    (∃ c, s.starts.get? call = some c ∧ ∃ i, c.members i = .failed) → s.Together
  | _ => True

/-- All promises have settled. -/
structure State.Settled (s : State n) : Prop where
  starts : ∀ call c, s.starts.get? call = some c → c.phase = .resolved ∨ c.phase = .rejected
  watchers : ∀ i runner, ⟨i, .due runner⟩ ∉ s.watchers
  starting : ∀ i, (s.workers i).starting = none
  stopping : ∀ i, (s.workers i).stopping = none
  /-- Nobody awaits a promise of a runner that has settled. -/
  runs : ∀ i run runner, (s.workers i).run = some run → run.runner = some runner →
    (s.workers i).busy runner = true

/-! ## The invariant -/

/-- The worker takes part in the start(): its runner runs or is going to. -/
def State.Holds (s : State n) (i : Fin n) : Member → Prop
  | .started (some runner) => (s.workers i).busy runner = true ∧ (s.workers i).stopping = none
  | .starting => (s.workers i).stopping = none
  | .queued | .ready => True
  | .started none | .failed => False

def State.MemberOk (s : State n) (i : Fin n) : Member → Prop
  | .starting => (s.workers i).starting ≠ none
  | .queued => (s.workers i).stopping ≠ none
  | .started (some runner) =>
    runner < (s.workers i).nextRunner ∧ (s.workers i).starting ≠ some (.launching runner)
  | .started none => False
  | .ready | .failed => True

def State.PhaseOk (s : State n) (c : Start n) : Prop :=
  match c.phase with
  | .starting => True
  | .cleaning pending => ∀ i, (c.members i).settled = true ∧
      (pending i = true → (s.workers i).stopping ≠ none) ∧
      (pending i = false → ∀ runner, c.members i = .started (some runner) →
        (s.workers i).busy runner = false)
  | .resolved => ∀ i, ∃ runner, c.members i = .started runner
  | .rejected => ∀ i, (c.members i).settled = true ∧
      ∀ runner, c.members i = .started (some runner) → (s.workers i).busy runner = false

/-- A start() that lost a worker has lost all of them, or the others are about to be stopped. -/
def State.CallOk (s : State n) (c : Start n) : Prop :=
  ∀ i, ¬s.Holds i (c.members i) →
    (∀ j, ¬s.Holds j (c.members j)) ∨ (c.phase = .starting ∧ ∃ j, c.members j = .failed) ∨
      ∃ runner, c.members i = .started (some runner) ∧ (s.workers i).stopping = none ∧ s.Ended i runner

structure Inv (s : State n) : Prop where
  worker : ∀ i, WorkerOk (s.workers i)
  below : ∀ call c, s.starts.get? call = some c → call < s.next
  starting : ∀ i, (s.workers i).starting ≠ none →
    ∃ call c, s.starts.get? call = some c ∧ c.members i = .starting
  member : ∀ call c, s.starts.get? call = some c → ∀ i, s.MemberOk i (c.members i)
  phase : ∀ call c, s.starts.get? call = some c → s.PhaseOk c
  run : ∀ i run, (s.workers i).run = some run →
    ∃ call c, s.starts.get? call = some c ∧ c.members i = .started run.runner
  /-- Somebody awaits the promise of a run, or is going to. -/
  watched : ∀ i run, (s.workers i).run = some run → (s.workers i).stopping = none →
    ⟨i, .completion⟩ ∈ s.watchers ∨ ∃ call c, s.starts.get? call = some c ∧ c.phase = .starting
  pending : ∀ i run runner, (s.workers i).run = some run → run.supervise = .watching runner →
    s.completions i = .pending
  rejected : ∀ i runner, s.completions i = .rejected runner → (s.workers i).starting = none →
    (∀ id, (s.workers i).busy id = false) ∧ ((s.workers i).stopping = none → (s.workers i).run = none)
  due : ∀ i runner, ⟨i, .due (some runner)⟩ ∈ s.watchers →
    (s.workers i).starting = none ∧ s.completions i = .rejected runner
  call : ∀ call c, s.starts.get? call = some c → s.CallOk c

variable {s s' : State n} {i : Fin n} {c : Start n} {call : ℕ} {runner : RunnerId}

/-! ## Steps that the pool does not wait for -/

theorem Frame.refl {l : Lifecycle} : Frame l l := by
  refine ⟨Iff.rfl, fun _ => .inl, Iff.rfl, fun _ => rfl, fun run hrun => ⟨run, hrun, rfl, rfl⟩, le_rfl,
    fun _ _ => id, fun id hbusy hnot => ?_, fun _ _ => id⟩
  rw [hbusy] at hnot
  cases hnot

private theorem holds_of_frame (hframe : Frame (s.workers i) (s'.workers i)) {member : Member}
    (hmember : s.MemberOk i member) (h : s'.Holds i member) : s.Holds i member := by
  cases member with
  | started runner =>
    cases runner with
    | none => exact h
    | some runner => exact ⟨hframe.busy runner hmember.1 h.1, hframe.stopping.mp h.2⟩
  | starting => exact hframe.stopping.mp h
  | queued | ready | failed => exact h

private theorem ended_of_frame (hframe : Frame (s.workers i) (s'.workers i))
    (hstarts : s'.starts = s.starts) (hwatchers : s'.watchers = s.watchers)
    (hcompletions : s'.completions = s.completions) (h : s.Ended i runner) : s'.Ended i runner := by
  rcases h with hdue | ⟨hstopping, hended | ⟨hrun, hstarting, hrejected, hcall⟩⟩
  · exact .inl (hwatchers ▸ hdue)
  · obtain ⟨run, hrun, hrunner, hended⟩ := hended
    refine .inr ⟨hframe.stopping.mpr hstopping, .inl ⟨run, ?_, hrunner, hframe.ended _ _ hended⟩⟩
    rw [hframe.run hstopping, hrun]
  · refine .inr ⟨hframe.stopping.mpr hstopping, .inr ⟨?_, hframe.starting.mpr hstarting, ?_, ?_⟩⟩
    · rw [hframe.run hstopping, hrun]
    · rw [hcompletions, hrejected]
    · rwa [hstarts]

theorem Inv.frame (h : Inv s) (hworker : ∀ i, WorkerOk (s'.workers i))
    (hframe : ∀ i, Frame (s.workers i) (s'.workers i)) (hstarts : s'.starts = s.starts)
    (hnext : s'.next = s.next) (hwatchers : s'.watchers = s.watchers)
    (hcompletions : s'.completions = s.completions) : Inv s' where
  worker := hworker
  below := by
    rw [hstarts, hnext]
    exact h.below
  starting i hstarting := by
    rw [hstarts]
    exact h.starting i fun hnone => hstarting ((hframe i).starting.mpr hnone)
  member := by
    rw [hstarts]
    intro call c hcall i
    have hmember := h.member call c hcall i
    generalize c.members i = member at hmember ⊢
    cases member with
    | started runner =>
      cases runner with
      | none => exact hmember
      | some runner =>
        refine ⟨hmember.1.trans_le (hframe i).next, fun heq => ?_⟩
        rcases (hframe i).launching runner heq with hold | hnew
        · exact hmember.2 hold
        · exact absurd hmember.1 (not_lt.mpr hnew)
    | starting => exact fun hnone => hmember ((hframe i).starting.mp hnone)
    | queued => exact fun hnone => hmember ((hframe i).stopping.mp hnone)
    | ready | failed => trivial
  phase := by
    rw [hstarts]
    intro call c hcall
    have hphase := h.phase call c hcall
    -- The runner of a member was launched before, so it does not become busy.
    have hidle : ∀ i runner, c.members i = .started (some runner) →
        (s.workers i).busy runner = false → (s'.workers i).busy runner = false := by
      intro i runner hmember hidle
      have hok := h.member call c hcall i
      rw [hmember] at hok
      cases hbusy : (s'.workers i).busy runner with
      | false => rfl
      | true => exact absurd ((hframe i).busy runner hok.1 hbusy) (by simp [hidle])
    unfold State.PhaseOk at hphase ⊢
    cases hcase : c.phase with
    | starting => trivial
    | resolved =>
      rw [hcase] at hphase
      exact hphase
    | cleaning pending =>
      rw [hcase] at hphase
      intro i
      obtain ⟨hsettled, hpending, hdone⟩ := hphase i
      exact ⟨hsettled, fun hi hnone => hpending hi ((hframe i).stopping.mp hnone),
        fun hi runner hmember => hidle i runner hmember (hdone hi runner hmember)⟩
    | rejected =>
      rw [hcase] at hphase
      intro i
      exact ⟨(hphase i).1, fun runner hmember => hidle i runner hmember ((hphase i).2 runner hmember)⟩
  run i run' hrun' := by
    obtain ⟨run, hrun, hrunner, -⟩ := (hframe i).kept run' hrun'
    rw [hstarts, ← hrunner]
    exact h.run i run hrun
  watched i run hrun hstopping := by
    have hstopping := (hframe i).stopping.mp hstopping
    rw [hstarts, hwatchers]
    rw [(hframe i).run hstopping] at hrun
    exact h.watched i run hrun hstopping
  pending i run' runner hrun' hwatching := by
    obtain ⟨run, hrun, -, hsupervise⟩ := (hframe i).kept run' hrun'
    rw [hcompletions]
    exact h.pending i run runner hrun (hsupervise.trans hwatching)
  rejected i runner hrejected hstarting := by
    rw [hcompletions] at hrejected
    obtain ⟨hidle, hrun⟩ := h.rejected i runner hrejected ((hframe i).starting.mp hstarting)
    refine ⟨fun id => ?_, fun hstopping => ?_⟩
    · cases hbusy : (s'.workers i).busy id with
      | false => rfl
      | true =>
        rcases (hworker i).busy_cases hbusy with heq | ⟨-, run', hrun', hrunner', -⟩
        · simp [hstarting] at heq
        · obtain ⟨run, hrun, hrunner, -⟩ := (hframe i).kept run' hrun'
          obtain ⟨id', hrunOk⟩ := (h.worker i).run run hrun
          obtain rfl := Option.some.inj ((hrunner.trans hrunner').symm.trans hrunOk.runner)
          exact absurd ((hframe i).busy id hrunOk.below hbusy) (by simp [hidle])
    · have hstopping := (hframe i).stopping.mp hstopping
      rw [(hframe i).run hstopping]
      exact hrun hstopping
  due i runner hdue := by
    rw [hwatchers] at hdue
    obtain ⟨hstarting, hrejected⟩ := h.due i runner hdue
    exact ⟨(hframe i).starting.mpr hstarting, hcompletions ▸ hrejected⟩
  call := by
    rw [hstarts]
    intro call c hcall i hlost
    have hholds : ∀ j, ¬s.Holds j (c.members j) → ¬s'.Holds j (c.members j) :=
      fun j hnot hj => hnot (holds_of_frame (hframe j) (h.member call c hcall j) hj)
    cases Classical.em (s.Holds i (c.members i)) with
    | inr hnot =>
      rcases h.call call c hcall i hnot with hall | hfailed | ⟨runner, hmember, hstopping, hended⟩
      · exact .inl fun j => hholds j (hall j)
      · exact .inr (.inl hfailed)
      · exact .inr (.inr ⟨runner, hmember, (hframe i).stopping.mpr hstopping,
          ended_of_frame (hframe i) hstarts hwatchers hcompletions hended⟩)
    | inl hheld =>
      -- Only the runner's own end can lose the worker.
      have hmember := h.member call c hcall i
      cases hcase : c.members i with
      | started runner =>
        rw [hcase] at hheld hlost hmember
        cases runner with
        | none => exact hheld.elim
        | some runner =>
          obtain ⟨hbusy, hstopping⟩ := hheld
          have hstopping' := (hframe i).stopping.mpr hstopping
          have hdead : (s'.workers i).busy runner = false := by
            cases hbusy' : (s'.workers i).busy runner with
            | false => rfl
            | true => exact absurd ⟨hbusy', hstopping'⟩ hlost
          rcases (hframe i).died runner hbusy hdead with hlaunching | hstop | ⟨hended, run, hrun, hrunner⟩
          · exact absurd hlaunching hmember.2
          · exact absurd hstopping hstop
          · exact .inr (.inr ⟨runner, rfl, hstopping', .inr ⟨hstopping', .inl
              ⟨run, hrun, hrunner, hended⟩⟩⟩)
      | starting =>
        rw [hcase] at hheld hlost
        exact absurd ((hframe i).stopping.mpr hheld) hlost
      | queued | ready | failed => simp_all [State.Holds]

/-- A step of one worker that settles nothing. -/
theorem Inv.setWorker (h : Inv s) {l : Lifecycle} (hok : WorkerOk l) (hframe : Frame (s.workers i) l) :
    Inv (s.setWorker i l) := by
  refine h.frame (fun j => ?_) (fun j => ?_) rfl rfl rfl rfl
  · cases Classical.em (j = i) with
    | inl heq => simpa [State.setWorker, heq] using hok
    | inr hne => simpa [State.setWorker, hne] using h.worker j
  · cases Classical.em (j = i) with
    | inl heq =>
      subst heq
      simpa [State.setWorker] using hframe
    | inr hne => simpa [State.setWorker, hne] using Frame.refl

/-! ## start() -/

/-- What start() does to a worker, and what its promise waits for. -/
inductive Joins (l : Lifecycle) : Lifecycle → Member → Prop where
  | queued (hstopping : l.stopping ≠ none) : Joins l { l with queued := l.queued + 1 } .queued
  | starting (hstopping : l.stopping = none) (hstarting : l.starting ≠ none) : Joins l l .starting
  | started {run : Run} {runner : RunnerId} (hstopping : l.stopping = none) (hstarting : l.starting = none)
      (hrun : l.run = some run) (hok : RunOk l run runner) : Joins l l (.started (some runner))
  | scheduled (hstopping : l.stopping = none) (hstarting : l.starting = none) (hrun : l.run = none) :
      Joins l { l with starting := some .scheduled } .starting

theorem WorkerOk.joins {l : Lifecycle} (h : WorkerOk l) : Joins l l.start.1 (joined l) := by
  cases hstopping : l.stopping with
  | some pc =>
    have hstart : l.start.1 = { l with queued := l.queued + 1 } := by simp [Lifecycle.start, hstopping]
    have hjoined : joined l = .queued := by simp [joined, hstopping]
    rw [hstart, hjoined]
    exact .queued (by simp [hstopping])
  | none =>
    cases hstarting : l.starting with
    | some pc =>
      have hstart : l.start.1 = l := by simp [Lifecycle.start, hstopping, h.once, hstarting]
      have hjoined : joined l = .starting := by simp [joined, hstopping, h.once, hstarting]
      rw [hstart, hjoined]
      exact .starting hstopping (by simp [hstarting])
    | none =>
      cases hrun : l.run with
      | some run =>
        obtain ⟨runner, hok⟩ := h.run run hrun
        have hstart : l.start.1 = l := by simp [Lifecycle.start, hstopping, h.once, hstarting, hrun]
        have hjoined : joined l = .started (some runner) := by
          simp [joined, hstopping, h.once, hstarting, hrun, hok.runner]
        rw [hstart, hjoined]
        exact .started hstopping hstarting hrun hok
      | none =>
        have hstart : l.start.1 = { l with starting := some .scheduled } := by
          simp [Lifecycle.start, hstopping, h.once, hstarting, hrun]
        have hjoined : joined l = .starting := by simp [joined, hstopping, h.once, hstarting, hrun]
        rw [hstart, hjoined]
        exact .scheduled hstopping hstarting hrun

/-- What start() leaves as it is. -/
structure Joined (l l' : Lifecycle) : Prop where
  stopping : l'.stopping = l.stopping
  run : l'.run = l.run
  runners : l'.runners = l.runners
  next : l'.nextRunner = l.nextRunner
  starting : l'.starting = l.starting ∨
    l'.starting = some .scheduled ∧ l.starting = none ∧ l.stopping = none ∧ l.run = none

theorem Joins.joined {l l' : Lifecycle} {member : Member} (h : Joins l l' member) : Joined l l' := by
  cases h with
  | scheduled hstopping hstarting hrun =>
    exact ⟨rfl, rfl, rfl, rfl, .inr ⟨rfl, hstarting, hstopping, hrun⟩⟩
  | _ => exact ⟨rfl, rfl, rfl, rfl, .inl rfl⟩

theorem Joined.busy {l l' : Lifecycle} (h : Joined l l') (id : RunnerId) : l'.busy id = l.busy id := by
  simp only [Lifecycle.busy, h.runners]

theorem Joined.starting_none {l l' : Lifecycle} (h : Joined l l') (hnone : l'.starting = none) :
    l.starting = none := by
  rcases h.starting with heq | ⟨heq, -⟩
  · exact heq.symm.trans hnone
  · simp [heq] at hnone

theorem holds_of_joined {member : Member} (h : Joined (s.workers i) (s'.workers i)) :
    s'.Holds i member ↔ s.Holds i member := by
  cases member with
  | started runner =>
    cases runner with
    | none => rfl
    | some runner => simp [State.Holds, h.busy, h.stopping]
  | starting => simp [State.Holds, h.stopping]
  | queued | ready | failed => rfl

theorem memberOk_of_joined {member : Member} (h : Joined (s.workers i) (s'.workers i))
    (hok : s.MemberOk i member) : s'.MemberOk i member := by
  cases member with
  | started runner =>
    cases runner with
    | none => exact hok
    | some runner =>
      refine ⟨h.next ▸ hok.1, fun heq => ?_⟩
      rcases h.starting with hsame | ⟨hscheduled, -⟩
      · exact hok.2 (hsame ▸ heq)
      · simp [hscheduled] at heq
  | starting => exact fun hnone => hok (h.starting_none hnone)
  | queued => exact fun hnone => hok (h.stopping ▸ hnone)
  | ready | failed => trivial

/-- The member of a start() that has just called the worker's start(). -/
theorem memberOk_of_joins {member : Member} (h : Joins (s.workers i) (s'.workers i) member) :
    s'.MemberOk i member := by
  generalize hl : s.workers i = l at h
  generalize hl' : s'.workers i = l' at h
  cases h with
  | queued hstopping => simpa [State.MemberOk, hl'] using hstopping
  | starting hstopping hstarting => simpa [State.MemberOk, hl'] using hstarting
  | started hstopping hstarting hrun hok =>
    exact ⟨by simpa [hl'] using hok.below, by simp [hl', hstarting]⟩
  | scheduled => simp [State.MemberOk, hl']

/-- It holds on to the worker, unless the runner of the run has ended. -/
theorem holds_of_joins {member : Member}
    (h : Joins (s.workers i) (s'.workers i) member) (hended : ∀ runner, ¬s.Ended i runner) :
    s'.Holds i member := by
  generalize hl : s.workers i = l at h
  generalize hl' : s'.workers i = l' at h
  cases h with
  | queued => trivial
  | starting hstopping => simpa [State.Holds, hl'] using hstopping
  | @started run runner hstopping hstarting hrun hrunOk =>
    have hstopped : run.stopped = false := by
      cases hstopped : run.stopped with
      | false => rfl
      | true => exact absurd hstopping (hrunOk.stopped hstopped)
    rcases hrunOk.unasked hstopped with halive | hdead
    · refine ⟨?_, by simpa [hl'] using hstopping⟩
      rw [hl']
      simp [Lifecycle.busy, halive, RunnerStatus.busy]
    · have hend : s.Ended i runner :=
        .inr ⟨hl ▸ hstopping, .inl ⟨run, hl ▸ hrun, hrunOk.runner, hl ▸ hdead⟩⟩
      exact absurd hend (hended runner)
  | scheduled hstopping => simpa [State.Holds, hl'] using hstopping

/-- How a call of start() on some workers changes a start() of the pool. -/
structure Rejoined (s' : State n) (c c' : Start n) : Prop where
  phase : c'.phase = c.phase
  members : ∀ i, c'.members i = c.members i ∨ c.members i = .ready ∧ c.phase = .starting ∧
    s'.MemberOk i (c'.members i) ∧ s'.Holds i (c'.members i)

/-- It is new, and holds on to every worker. -/
structure Fresh (s' : State n) (c' : Start n) : Prop where
  phase : c'.phase = .starting
  members : ∀ i, s'.MemberOk i (c'.members i) ∧ s'.Holds i (c'.members i)

private theorem Rejoined.same {c' : Start n} (h : Rejoined s' c c') {member : Member}
    (hmember : c.members i = member) (hready : member ≠ .ready) : c'.members i = member := by
  rcases h.members i with heq | ⟨heq, -⟩
  · exact heq.trans hmember
  · exact absurd (hmember.symm.trans heq) hready

private theorem phaseOk_of_rejoined {c' : Start n} (hjoined : ∀ i, Joined (s.workers i) (s'.workers i))
    (h : Rejoined s' c c') (hok : s.PhaseOk c) : s'.PhaseOk c' := by
  unfold State.PhaseOk at hok ⊢
  rw [h.phase]
  cases hphase : c.phase with
  | starting => trivial
  | resolved =>
    rw [hphase] at hok
    intro i
    obtain ⟨runner, hmember⟩ := hok i
    exact ⟨runner, h.same hmember (by simp)⟩
  | cleaning pending =>
    rw [hphase] at hok
    intro i
    have hmember : c'.members i = c.members i := by
      rcases h.members i with heq | ⟨-, heq, -⟩
      · exact heq
      · simp [hphase] at heq
    simp only [hmember, (hjoined i).busy, (hjoined i).stopping]
    exact hok i
  | rejected =>
    rw [hphase] at hok
    intro i
    have hmember : c'.members i = c.members i := by
      rcases h.members i with heq | ⟨-, heq, -⟩
      · exact heq
      · simp [hphase] at heq
    simp only [hmember, (hjoined i).busy]
    exact hok i

/-- Calls of start() on some workers lose no end of a runner that is still to be answered. -/
theorem Inv.rejoin (h : Inv s) (hworker : ∀ i, WorkerOk (s'.workers i))
    (hjoined : ∀ i, Joined (s.workers i) (s'.workers i))
    (hended : ∀ i runner, (s'.workers i).starting ≠ (s.workers i).starting → ¬s.Ended i runner)
    (hstarting : ∀ i, (s'.workers i).starting ≠ (s.workers i).starting →
      ∃ call c, s'.starts.get? call = some c ∧ c.members i = .starting)
    (hwatchers : s'.watchers = s.watchers) (hcompletions : s'.completions = s.completions)
    (hbelow : ∀ call c, s'.starts.get? call = some c → call < s'.next)
    (hkept : ∀ call c, s.starts.get? call = some c →
      ∃ c', s'.starts.get? call = some c' ∧ Rejoined s' c c')
    (hcalls : ∀ call c', s'.starts.get? call = some c' →
      Fresh s' c' ∨ ∃ c, s.starts.get? call = some c ∧ Rejoined s' c c') : Inv s' where
  worker := hworker
  below := hbelow
  starting i hnone := by
    cases Classical.em ((s'.workers i).starting = (s.workers i).starting) with
    | inr hne => exact hstarting i hne
    | inl heq =>
      obtain ⟨call, c, hcall, hmember⟩ := h.starting i (heq ▸ hnone)
      obtain ⟨c', hcall', hrejoined⟩ := hkept call c hcall
      exact ⟨call, c', hcall', hrejoined.same hmember (by simp)⟩
  member call c' hcall' i := by
    rcases hcalls call c' hcall' with hfresh | ⟨c, hcall, hrejoined⟩
    · exact (hfresh.members i).1
    · rcases hrejoined.members i with heq | ⟨-, -, hok, -⟩
      · exact heq ▸ memberOk_of_joined (hjoined i) (h.member call c hcall i)
      · exact hok
  phase call c' hcall' := by
    rcases hcalls call c' hcall' with hfresh | ⟨c, hcall, hrejoined⟩
    · simp [State.PhaseOk, hfresh.phase]
    · exact phaseOk_of_rejoined hjoined hrejoined (h.phase call c hcall)
  run i run hrun := by
    rw [(hjoined i).run] at hrun
    obtain ⟨call, c, hcall, hmember⟩ := h.run i run hrun
    obtain ⟨c', hcall', hrejoined⟩ := hkept call c hcall
    exact ⟨call, c', hcall', hrejoined.same hmember (by simp)⟩
  watched i run hrun hstopping := by
    rw [(hjoined i).run] at hrun
    rw [(hjoined i).stopping] at hstopping
    rcases h.watched i run hrun hstopping with hwatch | ⟨call, c, hcall, hphase⟩
    · exact .inl (hwatchers ▸ hwatch)
    · obtain ⟨c', hcall', hrejoined⟩ := hkept call c hcall
      exact .inr ⟨call, c', hcall', hrejoined.phase.trans hphase⟩
  pending i run runner hrun hwatching := by
    rw [(hjoined i).run] at hrun
    rw [hcompletions]
    exact h.pending i run runner hrun hwatching
  rejected i runner hrejected hnone := by
    rw [hcompletions] at hrejected
    obtain ⟨hidle, hrun⟩ := h.rejected i runner hrejected ((hjoined i).starting_none hnone)
    refine ⟨fun id => by rw [(hjoined i).busy, hidle], fun hstopping => ?_⟩
    rw [(hjoined i).run]
    exact hrun ((hjoined i).stopping ▸ hstopping)
  due i runner hdue := by
    rw [hwatchers] at hdue
    obtain ⟨hnone, hrejected⟩ := h.due i runner hdue
    refine ⟨?_, hcompletions ▸ hrejected⟩
    cases Classical.em ((s'.workers i).starting = (s.workers i).starting) with
    | inl heq => exact heq.trans hnone
    | inr hne => exact absurd (.inl hdue) (hended i runner hne)
  call call c' hcall' i hlost := by
    rcases hcalls call c' hcall' with hfresh | ⟨c, hcall, hrejoined⟩
    · exact absurd (hfresh.members i).2 hlost
    · have hmember : c'.members i = c.members i := by
        rcases hrejoined.members i with heq | ⟨-, -, -, hholds⟩
        · exact heq
        · exact absurd hholds hlost
      rw [hmember, holds_of_joined (hjoined i)] at hlost
      rcases h.call call c hcall i hlost with hall | ⟨hphase, j, hfailed⟩ |
        ⟨runner, hstarted, hstopping, hend⟩
      · refine .inl fun j hj => ?_
        rcases hrejoined.members j with heq | ⟨hready, -⟩
        · rw [heq, holds_of_joined (hjoined j)] at hj
          exact hall j hj
        · exact hall j (by simp [hready, State.Holds])
      · exact .inr (.inl ⟨hrejoined.phase.trans hphase, j, hrejoined.same hfailed (by simp)⟩)
      · have hnone : (s'.workers i).starting = (s.workers i).starting := by
          cases Classical.em ((s'.workers i).starting = (s.workers i).starting) with
          | inl heq => exact heq
          | inr hne => exact absurd hend (hended i runner hne)
        refine .inr (.inr ⟨runner, hmember.trans hstarted, (hjoined i).stopping.trans hstopping, ?_⟩)
        rcases hend with hdue | ⟨-, hrun | ⟨hrun, hidle, hrejected, call', d, hd, hphase⟩⟩
        · exact .inl (hwatchers ▸ hdue)
        · refine .inr ⟨(hjoined i).stopping.trans hstopping, .inl ?_⟩
          rw [(hjoined i).run, (hjoined i).runners]
          exact hrun
        · obtain ⟨d', hd', hrejoined'⟩ := hkept call' d hd
          refine .inr ⟨(hjoined i).stopping.trans hstopping, .inr ⟨(hjoined i).run.trans hrun,
            hnone.trans hidle, by rw [hcompletions, hrejected], call', d', hd', ?_⟩⟩
          exact hrejoined'.phase.trans hphase

theorem Inv.start (h : Inv s) (hcareful : Careful s .start) : Inv s.start := by
  have hjoins : ∀ i, Joins (s.workers i) (s.start.workers i) (joined (s.workers i)) :=
    fun i => (h.worker i).joins
  have hget : ∀ call, s.start.starts.get? call =
      if call = s.next then some ⟨fun i => joined (s.workers i), .starting⟩
      else s.starts.get? call := fun _ => Table.get?_insert
  have hkept : ∀ call c, s.starts.get? call = some c → s.start.starts.get? call = some c := by
    intro call c hcall
    rw [hget, if_neg (h.below call c hcall).ne]
    exact hcall
  -- A worker that is shutting down only queues its start().
  have hholds : ∀ i, s.start.Holds i (joined (s.workers i)) := by
    intro i
    cases Classical.em ((s.workers i).stopping = none) with
    | inl hstopping => exact holds_of_joins (hjoins i) fun runner => hcareful i runner hstopping
    | inr hstopping => simp [joined, Option.isSome_iff_ne_none.mpr hstopping, State.Holds]
  have hfresh : Fresh s.start ⟨fun i => joined (s.workers i), .starting⟩ :=
    ⟨rfl, fun i => ⟨memberOk_of_joins (hjoins i), hholds i⟩⟩
  refine h.rejoin (fun i => (h.worker i).start) (fun i => (hjoins i).joined) (fun i runner hne => ?_)
    (fun i hne => ?_) rfl rfl (fun call c hcall => ?_)
    (fun call c hcall => ⟨c, hkept call c hcall, rfl, fun _ => .inl rfl⟩) (fun call c hcall => ?_)
  · rcases (hjoins i).joined.starting with heq | ⟨-, -, hstopping, -⟩
    · exact absurd heq hne
    · exact hcareful i runner hstopping
  · refine ⟨s.next, _, (hget s.next).trans (if_pos rfl), ?_⟩
    rcases (hjoins i).joined.starting with heq | ⟨-, hstarting, hstopping, hrun⟩
    · exact absurd heq hne
    · simp [joined, hstopping, (h.worker i).once, hstarting, hrun]
  · rw [hget] at hcall
    split at hcall
    · rename_i heq
      exact heq ▸ Nat.lt_succ_self _
    · exact (h.below call c hcall).trans (Nat.lt_succ_self _)
  · rw [hget] at hcall
    split at hcall
    · obtain rfl := Option.some.inj hcall
      exact .inl hfresh
    · exact .inr ⟨c, hcall, rfl, fun _ => .inl rfl⟩

@[simp] theorem setWorker_self {l : Lifecycle} : (s.setWorker i l).workers i = l := by
  simp [State.setWorker]

/-- A chained start() runs in a state whose counters already say so. -/
private theorem Inv.chained_resumed (h : Inv s) (hcareful : ∀ runner, ¬s.Ended i runner)
    (hcall : s.starts.get? call = some c) (hready : c.members i = .ready) :
    Inv { s.setWorker i (s.workers i).start.1 with
      starts := s.starts.insert call (c.setMember i (joined (s.workers i))) } := by
  generalize hs' : ({ s.setWorker i (s.workers i).start.1 with
    starts := s.starts.insert call (c.setMember i (joined (s.workers i))) } : State n) = s'
  have hself : s'.workers i = (s.workers i).start.1 := by simp [← hs', State.setWorker]
  have hother : ∀ j, j ≠ i → s'.workers j = s.workers j := by
    intro j hne
    simp [← hs', State.setWorker, hne]
  have hget : ∀ call', s'.starts.get? call' =
      if call' = call then some (c.setMember i (joined (s.workers i)))
      else s.starts.get? call' := by
    intro call'
    rw [← hs']
    exact Table.get?_insert
  have hjoins : Joins (s.workers i) (s'.workers i) (joined (s.workers i)) :=
    hself ▸ (h.worker i).joins
  have hjoined : ∀ j, Joined (s.workers j) (s'.workers j) := by
    intro j
    cases Classical.em (j = i) with
    | inl heq => exact heq ▸ hjoins.joined
    | inr hne => exact hother j hne ▸ ⟨rfl, rfl, rfl, rfl, .inl rfl⟩
  have honly : ∀ j, (s'.workers j).starting ≠ (s.workers j).starting → j = i := by
    intro j hne
    cases Classical.em (j = i) with
    | inl heq => exact heq
    | inr hj => exact absurd (by rw [hother j hj]) hne
  have hphase : c.phase = .starting := by
    have hok := h.phase call c hcall
    unfold State.PhaseOk at hok
    cases hphase : c.phase with
    | starting => rfl
    | resolved =>
      rw [hphase] at hok
      obtain ⟨runner, hstarted⟩ := hok i
      simp [hready] at hstarted
    | cleaning pending =>
      rw [hphase] at hok
      simpa [hready, Member.settled] using (hok i).1
    | rejected =>
      rw [hphase] at hok
      simpa [hready, Member.settled] using (hok i).1
  have hrejoined : Rejoined s' c (c.setMember i (joined (s.workers i))) := by
    refine ⟨rfl, fun j => ?_⟩
    cases Classical.em (j = i) with
    | inr hne => simp [Start.setMember, hne]
    | inl heq =>
      subst heq
      have hmember : (c.setMember j (joined (s.workers j))).members j = joined (s.workers j) := by
        simp [Start.setMember]
      rw [hmember]
      exact .inr ⟨hready, hphase, memberOk_of_joins hjoins, holds_of_joins hjoins hcareful⟩
  refine h.rejoin (fun j => ?_) hjoined (fun j runner hne => ?_) (fun j hne => ?_) (by simp [← hs', State.setWorker])
    (by simp [← hs', State.setWorker]) (fun call' c' hcall' => ?_) (fun call' c' hcall' => ?_)
    (fun call' c' hcall' => ?_)
  · cases Classical.em (j = i) with
    | inl heq =>
      subst heq
      exact hself ▸ (h.worker j).start
    | inr hne => exact hother j hne ▸ h.worker j
  · exact honly j hne ▸ hcareful runner
  · obtain rfl := honly j hne
    refine ⟨call, _, (hget call).trans (if_pos rfl), ?_⟩
    rcases hjoins.joined.starting with heq | ⟨-, hstarting, hstopping, hrun⟩
    · exact absurd heq hne
    · simp [Start.setMember, joined, hstopping, (h.worker j).once, hstarting, hrun]
  · have hnext : s'.next = s.next := by simp [← hs', State.setWorker]
    rw [hnext]
    rw [hget] at hcall'
    split at hcall'
    · rename_i heq
      exact heq ▸ h.below call c hcall
    · exact h.below call' c' hcall'
  · cases Classical.em (call' = call) with
    | inl heq =>
      subst heq
      obtain rfl := Option.some.inj (hcall.symm.trans hcall')
      exact ⟨_, (hget call').trans (if_pos rfl), hrejoined⟩
    | inr hne => exact ⟨c', (hget call').trans ((if_neg hne).trans hcall'), rfl, fun _ => .inl rfl⟩
  · rw [hget] at hcall'
    split at hcall'
    · rename_i heq
      obtain rfl := Option.some.inj hcall'
      exact .inr ⟨c, heq ▸ hcall, hrejoined⟩
    · exact .inr ⟨c', hcall', rfl, fun _ => .inl rfl⟩

theorem Inv.chained (h : Inv s) (hcareful : ∀ runner, ¬s.Ended i runner)
    (hcall : s.starts.get? call = some c) (hready : c.members i = .ready) :
    Inv { s.setWorker i (resume (s.workers i)).start.1 with
      starts := s.starts.insert call (c.setMember i (joined (resume (s.workers i)))) } := by
  have hframe : Frame (s.workers i) (resume (s.workers i)) := by
    refine ⟨Iff.rfl, fun _ => .inl, Iff.rfl, fun _ => rfl, fun run hrun => ⟨run, hrun, rfl, rfl⟩,
      le_rfl, fun _ _ => id, fun id hbusy hnot => ?_, fun _ _ => id⟩
    have hnot : (s.workers i).busy id = false := hnot
    rw [hbusy] at hnot
    cases hnot
  have hresumed := h.setWorker (h.worker i).resume hframe
  have hcareful' : ∀ runner, ¬(s.setWorker i (resume (s.workers i))).Ended i runner := by
    intro runner hended
    apply hcareful runner
    simpa [State.Ended, resume, State.setWorker] using hended
  have hchained := hresumed.chained_resumed hcareful' hcall hready
  simpa [State.setWorker] using hchained

/-! ## stop(), and whoever calls it -/

/-- While every worker is shutting down, only queued start() calls go on. -/
private theorem queued_of_holds {member : Member} (hstopping : (s.workers i).stopping ≠ none)
    (h : s.Holds i member) : member = .queued ∨ member = .ready := by
  cases member with
  | started runner =>
    cases runner with
    | none => exact h.elim
    | some runner => exact absurd h.2 hstopping
  | starting => exact absurd h hstopping
  | queued => exact .inl rfl
  | ready => exact .inr rfl
  | failed => exact h.elim

/--
All workers are shutting down, and a start() that has lost a worker has no other. Its phase and the
watchers can then change, as long as they stay true to what they say.
-/
theorem Inv.shutting (h : Inv s) (hworker : ∀ i, WorkerOk (s'.workers i))
    (hasked : ∀ i, Asked (s.workers i) (s'.workers i))
    (htogether : s.Together) (hstop : ∀ i, (s.workers i).stopping ≠ none → s'.workers i = s.workers i)
    (hnext : s'.next = s.next) (hcompletions : s'.completions = s.completions)
    (hwatchers : ∀ w ∈ s'.watchers, w ∈ s.watchers)
    (hkept : ∀ call c, s.starts.get? call = some c →
      ∃ c', s'.starts.get? call = some c' ∧ c'.members = c.members)
    (hcalls : ∀ call c', s'.starts.get? call = some c' → ∃ c, s.starts.get? call = some c ∧
      c'.members = c.members ∧ (c'.phase = c.phase ∨
        (∀ i, (c.members i).settled = true) ∧ c'.phase = .cleaning fun _ => true)) : Inv s' where
  worker := hworker
  below call c' hcall' := by
    obtain ⟨c, hcall, -⟩ := hcalls call c' hcall'
    exact hnext ▸ h.below call c hcall
  starting i hnone := by
    rw [(hasked i).starting] at hnone
    obtain ⟨call, c, hcall, hmember⟩ := h.starting i hnone
    obtain ⟨c', hcall', hmembers⟩ := hkept call c hcall
    exact ⟨call, c', hcall', hmembers ▸ hmember⟩
  member call c' hcall' i := by
    obtain ⟨c, hcall, hmembers, -⟩ := hcalls call c' hcall'
    have hok := h.member call c hcall i
    rw [hmembers]
    generalize c.members i = member at hok ⊢
    cases member with
    | started runner =>
      cases runner with
      | none => exact hok
      | some runner => exact ⟨(hasked i).next ▸ hok.1, (hasked i).starting ▸ hok.2⟩
    | starting =>
      intro hnone
      exact hok ((hasked i).starting.symm.trans hnone)
    | queued => exact (hasked i).stopping
    | ready | failed => trivial
  phase call c' hcall' := by
    obtain ⟨c, hcall, hmembers, hphase | ⟨hsettled, hphase⟩⟩ := hcalls call c' hcall'
    · have hok := h.phase call c hcall
      unfold State.PhaseOk at hok ⊢
      rw [hphase, hmembers]
      cases hcase : c.phase with
      | starting => trivial
      | resolved =>
        rw [hcase] at hok
        exact hok
      | cleaning pending =>
        rw [hcase] at hok
        intro i
        simp only [(hasked i).busy]
        exact ⟨(hok i).1, fun _ => (hasked i).stopping, (hok i).2.2⟩
      | rejected =>
        rw [hcase] at hok
        intro i
        simp only [(hasked i).busy]
        exact hok i
    · unfold State.PhaseOk
      rw [hphase, hmembers]
      intro i
      exact ⟨hsettled i, fun _ => (hasked i).stopping, by simp⟩
  run i run' hrun' := by
    obtain ⟨run, hrun, hrunner, -⟩ := (hasked i).kept run' hrun'
    obtain ⟨call, c, hcall, hmember⟩ := h.run i run hrun
    obtain ⟨c', hcall', hmembers⟩ := hkept call c hcall
    refine ⟨call, c', hcall', ?_⟩
    rw [hmembers, hmember, hrunner]
  watched i run _ hstopping := absurd hstopping (hasked i).stopping
  pending i run' runner hrun' hwatching := by
    obtain ⟨run, hrun, -, hsupervise⟩ := (hasked i).kept run' hrun'
    rw [hcompletions]
    exact h.pending i run runner hrun (hsupervise.trans hwatching)
  rejected i runner hrejected hnone := by
    rw [hcompletions] at hrejected
    rw [(hasked i).starting] at hnone
    refine ⟨fun id => ?_, fun hstopping => absurd hstopping (hasked i).stopping⟩
    rw [(hasked i).busy]
    exact (h.rejected i runner hrejected hnone).1 id
  due i runner hdue := by
    rw [(hasked i).starting, hcompletions]
    exact h.due i runner (hwatchers _ hdue)
  call call c' hcall' i hlost := by
    obtain ⟨c, hcall, hmembers, hphase⟩ := hcalls call c' hcall'
    rw [hmembers] at hlost ⊢
    have hnone : (∀ j, c.members j ≠ .queued ∧ c.members j ≠ .ready) →
        ∀ j, ¬s'.Holds j (c.members j) := by
      intro hquiet j hj
      rcases queued_of_holds (hasked j).stopping hj with heq | heq
      · exact (hquiet j).1 heq
      · exact (hquiet j).2 heq
    rcases hphase with hphase | ⟨hsettled, -⟩
    · rcases htogether with hall | hquiet
      · -- The call of stop() joins the shutdowns that are under way.
        have hsame : ∀ j member, s'.Holds j member ↔ s.Holds j member := by
          intro j member
          have heq := hstop j (hall j)
          cases member with
          | started runner => cases runner <;> simp [State.Holds, heq]
          | starting => simp [State.Holds, heq]
          | queued | ready | failed => rfl
        rw [hsame] at hlost
        simp only [hsame]
        rcases h.call call c hcall i hlost with hnot | hfailed | ⟨_, -, hstopping, -⟩
        · exact .inl hnot
        · exact .inr (.inl (hphase ▸ hfailed))
        · exact absurd hstopping (hall i)
      · exact .inl (hnone (hquiet call c hcall))
    · refine .inl (hnone fun j => ?_)
      have hj := hsettled j
      constructor
      all_goals
        intro heq
        simp [heq, Member.settled] at hj

theorem Inv.stopAll (h : Inv s) (htogether : s.Together) : Inv s.stopAll :=
  h.shutting (fun i => (h.worker i).stop) (fun i => (h.worker i).asked_stop) htogether
    (fun _ => stop_of_stopping) rfl rfl (fun _ => id) (fun _ c hcall => ⟨c, hcall, rfl⟩)
    (fun _ c hcall => ⟨c, hcall, rfl, .inl rfl⟩)

theorem Inv.watch (h : Inv s) (htogether : s.Together) {w : Watcher n} :
    Inv { s.stopAll with watchers := s.watchers.erase w } :=
  h.shutting (fun i => (h.worker i).stop) (fun i => (h.worker i).asked_stop) htogether
    (fun _ => stop_of_stopping) rfl rfl (fun _ => List.mem_of_mem_erase)
    (fun _ c hcall => ⟨c, hcall, rfl⟩) (fun _ c hcall => ⟨c, hcall, rfl, .inl rfl⟩)

theorem Inv.cleaning (h : Inv s) (htogether : s.Together) {members : Fin n → Member}
    (hcall : s.starts.get? call = some ⟨members, .starting⟩)
    (hsettled : ∀ i, (members i).settled = true) :
    Inv { s.stopAll with starts := s.starts.insert call ⟨members, .cleaning fun _ => true⟩ } := by
  refine h.shutting (fun i => (h.worker i).stop) (fun i => (h.worker i).asked_stop) htogether
    (fun _ => stop_of_stopping) rfl rfl (fun _ => id) (fun call' c hcall' => ?_)
    (fun call' c hcall' => ?_)
  · simp only [Table.get?_insert]
    split
    · rename_i heq
      subst heq
      obtain rfl := Option.some.inj (hcall.symm.trans hcall')
      exact ⟨_, rfl, rfl⟩
    · exact ⟨c, hcall', rfl⟩
  · simp only [Table.get?_insert] at hcall'
    split at hcall'
    · rename_i heq
      subst heq
      obtain rfl := Option.some.inj hcall'
      exact ⟨⟨members, .starting⟩, hcall, rfl, .inr ⟨hsettled, rfl⟩⟩
    · exact ⟨c, hcall', rfl, .inl rfl⟩

/-! ## A start() that settles -/

private theorem mem_attach {w : Watcher n} : w ∈ (List.finRange n).filterMap s.attach ↔
    ∃ i, s.attach i = some w := by
  simp [List.mem_filterMap]

/-- A start() that resolves watches the promise of every worker. -/
theorem Inv.resolved (h : Inv s) {members : Fin n → Member}
    (hcall : s.starts.get? call = some ⟨members, .starting⟩)
    (hsettled : ∀ i, (members i).settled = true) (hstarted : ∀ i, members i ≠ .failed) :
    Inv { s with
      starts := s.starts.insert call ⟨members, .resolved⟩
      watchers := s.watchers ++ (List.finRange n).filterMap s.attach } := by
  have hget : ∀ call', (s.starts.insert call ⟨members, .resolved⟩).get? call' =
      if call' = call then some ⟨members, .resolved⟩ else s.starts.get? call' :=
    fun _ => Table.get?_insert
  -- The members of every start() are the same, and no other one changes its phase.
  have hkept : ∀ call' c, s.starts.get? call' = some c →
      ∃ c', (s.starts.insert call ⟨members, .resolved⟩).get? call' = some c' ∧
        c'.members = c.members := by
    intro call' c hcall'
    rw [hget]
    split
    · rename_i heq
      subst heq
      obtain rfl := Option.some.inj (hcall.symm.trans hcall')
      exact ⟨_, rfl, rfl⟩
    · exact ⟨c, hcall', rfl⟩
  have hcalls : ∀ call' c', (s.starts.insert call ⟨members, .resolved⟩).get? call' = some c' →
      ∃ c, s.starts.get? call' = some c ∧ c'.members = c.members ∧
        (c' = c ∨ c' = ⟨members, .resolved⟩) := by
    intro call' c' hcall'
    rw [hget] at hcall'
    split at hcall'
    · rename_i heq
      subst heq
      obtain rfl := Option.some.inj hcall'
      exact ⟨_, hcall, rfl, .inr rfl⟩
    · exact ⟨c', hcall', rfl, .inl rfl⟩
  -- A worker whose run ended during the startup is watched by a rejected promise.
  have hended : ∀ i runner, s.Ended i runner → State.Ended { s with
      starts := s.starts.insert call ⟨members, .resolved⟩
      watchers := s.watchers ++ (List.finRange n).filterMap s.attach } i runner := by
    intro i runner hend
    rcases hend with hdue | ⟨hstopping, hrun | ⟨hrun, hstarting, hrejected, -⟩⟩
    · exact .inl (List.mem_append_left _ hdue)
    · exact .inr ⟨hstopping, .inl hrun⟩
    · refine .inl (List.mem_append_right _ (mem_attach.mpr ⟨i, ?_⟩))
      simp [State.attach, hstarting, hrejected]
  refine ⟨h.worker, fun call' c' hcall' => ?_, fun i hnone => ?_, fun call' c' hcall' i => ?_,
    fun call' c' hcall' => ?_, fun i run hrun => ?_, fun i run hrun hstopping => .inl ?_, h.pending,
    h.rejected, fun i runner hdue => ?_, fun call' c' hcall' i hlost => ?_⟩
  · obtain ⟨c, hold, -⟩ := hcalls call' c' hcall'
    exact h.below call' c hold
  · obtain ⟨call', c, hold, hmember⟩ := h.starting i hnone
    obtain ⟨c', hnew, hmembers⟩ := hkept call' c hold
    exact ⟨call', c', hnew, hmembers ▸ hmember⟩
  · obtain ⟨c, hold, hmembers, -⟩ := hcalls call' c' hcall'
    rw [hmembers]
    exact h.member call' c hold i
  · obtain ⟨c, hold, -, rfl | rfl⟩ := hcalls call' c' hcall'
    · exact h.phase call' c' hold
    · intro i
      have hi := hsettled i
      cases hmember : members i with
      | started runner => exact ⟨runner, hmember⟩
      | failed => exact absurd hmember (hstarted i)
      | starting | queued | ready => simp [hmember, Member.settled] at hi
  · obtain ⟨call', c, hold, hmember⟩ := h.run i run hrun
    obtain ⟨c', hnew, hmembers⟩ := hkept call' c hold
    exact ⟨call', c', hnew, hmembers ▸ hmember⟩
  · -- The run of a worker that nobody stops has not settled its completion.
    obtain ⟨runner, hok⟩ := (h.worker i).run run hrun
    have hstarting : (s.workers i).starting = none := by
      cases hstarting : (s.workers i).starting with
      | none => rfl
      | some pc =>
        have hnone := (h.worker i).ok.starting (by simp [hstarting])
        rw [hnone] at hrun
        cases hrun
    have hwatching : run.supervise = .watching runner := by
      rcases hok.supervise with heq | heq
      · exact heq
      · have hstopped := (h.worker i).ok.stopped run hrun (.inl heq)
        exact absurd hstopping (hok.stopped hstopped)
    refine List.mem_append_right _ (mem_attach.mpr ⟨i, ?_⟩)
    simp [State.attach, hstarting, h.pending i run runner hrun hwatching]
  · rcases List.mem_append.mp hdue with hold | hnew
    · exact h.due i runner hold
    · obtain ⟨j, hattach⟩ := mem_attach.mp hnew
      unfold State.attach at hattach
      split at hattach
      · cases hattach
      · rename_i hstarting
        split at hattach
        · cases hattach
        · cases hattach
        · rename_i runner' hrejected
          cases hattach
          exact ⟨Option.not_isSome_iff_eq_none.mp hstarting, hrejected⟩
  · obtain ⟨c, hold, hmembers, hphase⟩ := hcalls call' c' hcall'
    rw [hmembers] at hlost ⊢
    rcases h.call call' c hold i hlost with hall | ⟨hstarting, j, hfailed⟩ |
      ⟨runner, hmember, hstopping, hend⟩
    · exact .inl hall
    · rcases hphase with rfl | rfl
      · exact .inr (.inl ⟨hstarting, j, hfailed⟩)
      · rw [← hmembers] at hfailed
        exact absurd hfailed (hstarted j)
    · exact .inr (.inr ⟨runner, hmember, hstopping, hended i runner hend⟩)

/-- The cleanup of a failed start() is over. -/
theorem Inv.cleaned (h : Inv s) {members : Fin n → Member} {pending : Fin n → Bool}
    (hcall : s.starts.get? call = some ⟨members, .cleaning pending⟩) (hpending : ∀ i, pending i = false) :
    Inv { s with starts := s.starts.insert call ⟨members, .rejected⟩ } := by
  have hget : ∀ call', (s.starts.insert call ⟨members, .rejected⟩).get? call' =
      if call' = call then some ⟨members, .rejected⟩ else s.starts.get? call' :=
    fun _ => Table.get?_insert
  have hkept : ∀ call' c, s.starts.get? call' = some c →
      ∃ c', (s.starts.insert call ⟨members, .rejected⟩).get? call' = some c' ∧
        c'.members = c.members ∧ (c.phase = .starting → c'.phase = .starting) := by
    intro call' c hcall'
    rw [hget]
    split
    · rename_i heq
      subst heq
      obtain rfl := Option.some.inj (hcall.symm.trans hcall')
      exact ⟨_, rfl, rfl, by simp⟩
    · exact ⟨c, hcall', rfl, id⟩
  have hcalls : ∀ call' c', (s.starts.insert call ⟨members, .rejected⟩).get? call' = some c' →
      s.starts.get? call' = some c' ∨
        c' = ⟨members, .rejected⟩ ∧ s.starts.get? call' = some ⟨members, .cleaning pending⟩ := by
    intro call' c' hcall'
    rw [hget] at hcall'
    split at hcall'
    · rename_i heq
      subst heq
      exact .inr ⟨(Option.some.inj hcall').symm, hcall⟩
    · exact .inl hcall'
  have hended : ∀ i runner, s.Ended i runner →
      State.Ended { s with starts := s.starts.insert call ⟨members, .rejected⟩ } i runner := by
    intro i runner hend
    rcases hend with hdue | ⟨hstopping, hrun | ⟨hrun, hstarting, hrejected, call', c, hold, hphase⟩⟩
    · exact .inl hdue
    · exact .inr ⟨hstopping, .inl hrun⟩
    · obtain ⟨c', hnew, -, hstays⟩ := hkept call' c hold
      exact .inr ⟨hstopping, .inr ⟨hrun, hstarting, hrejected, call', c', hnew, hstays hphase⟩⟩
  refine ⟨h.worker, fun call' c' hcall' => ?_, fun i hnone => ?_, fun call' c' hcall' i => ?_,
    fun call' c' hcall' => ?_, fun i run hrun => ?_, fun i run hrun hstopping => ?_, h.pending,
    h.rejected, h.due, fun call' c' hcall' i hlost => ?_⟩
  · rcases hcalls call' c' hcall' with hold | ⟨rfl, hold⟩
    · exact h.below call' _ hold
    · exact h.below call' _ hold
  · obtain ⟨call', c, hold, hmember⟩ := h.starting i hnone
    obtain ⟨c', hnew, hmembers, -⟩ := hkept call' c hold
    exact ⟨call', c', hnew, hmembers ▸ hmember⟩
  · rcases hcalls call' c' hcall' with hold | ⟨rfl, hold⟩
    · exact h.member call' _ hold i
    · exact h.member call' _ hold i
  · rcases hcalls call' c' hcall' with hold | ⟨rfl, hold⟩
    · exact h.phase call' _ hold
    · have hok := h.phase call' _ hold
      intro i
      exact ⟨(hok i).1, (hok i).2.2 (hpending i)⟩
  · obtain ⟨call', c, hold, hmember⟩ := h.run i run hrun
    obtain ⟨c', hnew, hmembers, -⟩ := hkept call' c hold
    exact ⟨call', c', hnew, hmembers ▸ hmember⟩
  · rcases h.watched i run hrun hstopping with hwatch | ⟨call', c, hold, hphase⟩
    · exact .inl hwatch
    · obtain ⟨c', hnew, -, hstays⟩ := hkept call' c hold
      exact .inr ⟨call', c', hnew, hstays hphase⟩
  · have hwas : ∃ c, s.starts.get? call' = some c ∧ c'.members = c.members ∧
        (c.phase = .starting → c'.phase = .starting) := by
      rcases hcalls call' c' hcall' with hold | ⟨rfl, hold⟩
      · exact ⟨c', hold, rfl, id⟩
      · exact ⟨_, hold, rfl, by simp⟩
    obtain ⟨c, hold, hmembers, hphase⟩ := hwas
    rw [hmembers] at hlost ⊢
    rcases h.call call' c hold i hlost with hall | ⟨hstarting, hfailed⟩ |
      ⟨runner, hmember, hstopping, hend⟩
    · exact .inl hall
    · exact .inr (.inl ⟨hphase hstarting, hfailed⟩)
    · exact .inr (.inr ⟨runner, hmember, hstopping, hended i runner hend⟩)

end

end WorkerPool

end BetterGraphileWorker
