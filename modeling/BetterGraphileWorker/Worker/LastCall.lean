-- SUMMARY: Whether a runner is alive once every start() and stop() has settled.
import BetterGraphileWorker.Worker.Exclusivity

/-!
# Last call

start() and stop() share the promise of a shutdown: a start() that finds one is chained on it, and
a stop() that finds one returns it.
-/

namespace BetterGraphileWorker

/-- The last call. -/
inductive LastCall where
  | start
  /-- `overtaken` if a start() waited for a shutdown at that moment. -/
  | stop (overtaken : Bool)
deriving DecidableEq

namespace Lifecycle

def noteCall (s : Lifecycle) (e : LifecycleEvent) (_ : Lifecycle) (last : Option LastCall) :
    Option LastCall :=
  match e with
  | .start => some .start
  | .stop => some (.stop (decide (0 < s.queued + s.ready)))
  | _ => last

/-- Only start() and stop() are called, no startup fails, no runner ends on its own or rejects its
stop(), and no shutdown rejects that a start() waits for. -/
def orderly (s : Lifecycle) : LifecycleEvent → Bool
  | .runOnce | .signal => false
  | .launched _ ok | .runnerStopped ok | .lateStopped ok => ok
  | .ended runner _ => s.runners.get? runner ≠ some (.alive false)
  | .released ok => ok || s.queued = 0
  | _ => true

/-- The promises of all calls have settled. -/
def callsSettled (s : Lifecycle) : Prop :=
  s.starting = none ∧ s.stopping = none ∧ s.queued = 0 ∧ s.ready = 0

/-- What is under way ends with a runner. -/
def Up (s : Lifecycle) : Prop :=
  0 < s.queued + s.ready ∨ s.stopping = none ∧ (s.starting ≠ none ∨ s.run ≠ none)

/-- The runner of a run is alive until stop() is called. -/
structure RunOk (s : Lifecycle) (run : Run) : Prop where
  supervise : run.supervise = .settled ∨ ∃ id, run.runner = some id ∧ run.supervise = .watching id
  alive : run.stopped = false → ∃ id, run.runner = some id ∧ run.supervise = .watching id ∧
    s.runners.get? id = some (.alive false)
  stopping : run.stopped = true → s.stopping ≠ none

structure Orderly (s : Lifecycle) : Prop where
  ok : s.Ok
  once : s.once = none
  stopped : ∀ run, s.run = some run → (∃ id, s.stopping = some (.stoppingRunner id)) ∨
    s.stopping = some .awaitingCompletion → run.stopped = true
  starting : s.starting ≠ some .releasing
  launching : ∀ id, s.starting = some (.launching id) →
    s.runners.get? id = some .launching ∨ s.runners.get? id = some (.alive false)
  run : ∀ run, s.run = some run → s.RunOk run

end Lifecycle

/-- The lifecycle and the last call. -/
def lastCall (options : LifecycleOptions) : TransitionSystem (Lifecycle × Option LastCall) LifecycleEvent :=
  (lifecycle options).observe none Lifecycle.noteCall

namespace Lifecycle

variable {s s' : Lifecycle} {e : LifecycleEvent} {options : LifecycleOptions} {last : Option LastCall}

/-! ## Calls -/

private theorem start_orderly (h : s.Orderly) : s.start.1.Orderly := by
  have hok := h.ok.start
  have hcases := start_cases s
  generalize s.start.1 = s' at hok hcases ⊢
  cases hcases with
  | chained =>
    refine ⟨hok, h.once, h.stopped, h.starting, h.launching, fun run hrun => ?_⟩
    have hrunOk := h.run run hrun
    exact ⟨hrunOk.supervise, hrunOk.alive, hrunOk.stopping⟩
  | rejected | running => exact h
  | started hstopping honce hstarting hrun =>
    exact ⟨hok, h.once, h.stopped, by simp, by simp, by simp [hrun]⟩

/-- start() ends with a runner, whatever is under way. -/
private theorem start_up (h : s.Orderly) : s.start.1.Up := by
  have hcases := start_cases s
  generalize s.start.1 = s' at hcases ⊢
  cases hcases with
  | chained => exact .inl (by simp only; omega)
  | rejected honce => exact absurd h.once honce
  | running hstopping hup => exact .inr ⟨hstopping, hup⟩
  | started hstopping => exact .inr ⟨hstopping, .inl (by simp)⟩

private theorem up_of_stopping (hstopping : s.stopping ≠ none) : s.Up ↔ 0 < s.queued + s.ready := by
  simp [Up, hstopping]

private theorem stopRun_orderly (h : s.Orderly) (hok : s.stopRun.Ok) (hstarting : s.starting = none) :
    s.stopRun.Orderly := by
  have honce := h.once
  have hcases := stopRun_cases s
  generalize s.stopRun = s' at hok hcases ⊢
  cases hcases with
  | idle hrun => exact ⟨hok, by simpa using honce, by simp, by simp [hstarting], by simp [hstarting], by simp [hrun]⟩
  | restarting hrun hrunner =>
    refine ⟨hok, by simpa using honce, by simp, by simp [hstarting], by simp [hstarting], fun run hrun' => ?_⟩
    obtain rfl := Option.some.inj hrun'
    exact ⟨(h.run _ hrun).supervise, by simp, by simp⟩
  | running hrun hrunner =>
    refine ⟨hok, by simpa [askStop] using honce, by simp, by simp [askStop, hstarting],
      by simp [askStop, hstarting], fun run hrun' => ?_⟩
    obtain rfl := Option.some.inj hrun'
    exact ⟨(h.run _ hrun).supervise, by simp, by simp⟩

/-- The stop body waits for starts that are chained on it, and does not run them. -/
private theorem stopRun_frame : s.stopRun.stopping ≠ none ∧ s.stopRun.queued = s.queued ∧
    s.stopRun.ready = s.ready := by
  have hcases := stopRun_cases s
  generalize s.stopRun = s' at hcases ⊢
  cases hcases with
  | idle | restarting | running => simp [askStop]

private theorem stopOnce_eq (h : s.Orderly) : s.stopOnce = s.stopRun := by
  simp [stopOnce, h.once]

private theorem stop_orderly (h : s.Orderly) : s.stop.1.Orderly := by
  have hok := h.ok.stop
  have hcases := stop_cases s
  generalize s.stop.1 = s' at hok hcases ⊢
  cases hcases with
  | shared => exact h
  | startup hstopping hstarting =>
    have hrun := h.ok.starting hstarting
    exact ⟨hok, h.once, by simp [hrun], h.starting, h.launching, by simp [hrun]⟩
  | stops hstopping hstarting =>
    rw [stopOnce_eq h] at hok ⊢
    exact stopRun_orderly h hok hstarting

private theorem stop_up (h : s.Orderly) : s.stop.1.Up ↔ 0 < s.queued + s.ready := by
  have hcases := stop_cases s
  generalize s.stop.1 = s' at hcases ⊢
  cases hcases with
  | shared hstopping => exact up_of_stopping hstopping
  | startup => exact up_of_stopping (by simp)
  | stops =>
    obtain ⟨hstopping, hqueued, hready⟩ := stopRun_frame (s := s)
    rw [stopOnce_eq h, up_of_stopping hstopping, hqueued, hready]

/-! ## Steps -/

/-- A step that leaves what `Up` reads. -/
private theorem up_congr (hqueued : s'.queued + s'.ready = s.queued + s.ready)
    (hstopping : s'.stopping = none ↔ s.stopping = none)
    (hrun : s.stopping = none → (s'.starting ≠ none ∨ s'.run ≠ none ↔ s.starting ≠ none ∨ s.run ≠ none)) :
    s'.Up ↔ s.Up := by
  unfold Up
  rw [hqueued, hstopping]
  constructor
  · rintro (hpos | ⟨hnone, hup⟩)
    · exact .inl hpos
    · exact .inr ⟨hnone, (hrun hnone).mp hup⟩
  · rintro (hpos | ⟨hnone, hup⟩)
    · exact .inl hpos
    · exact .inr ⟨hnone, (hrun hnone).mpr hup⟩

private theorem startBody_orderly (h : s.Orderly) (hok : s'.Ok) (hstep : s.startBody options = some s') :
    s'.Orderly ∧ (s'.Up ↔ s.Up) := by
  unfold startBody at hstep
  split at hstep
  · rename_i hstarting
    have hrun : s.run = none := h.ok.starting (by simp [hstarting])
    obtain ⟨hrun', honce', hstopping', hrunners, hqueued, hready⟩ := installed_frame options s
    obtain rfl := Option.some.inj hstep
    dsimp only at hok ⊢
    generalize (if options.handleSignals then s.installSignals else s) = c
      at hok hrun' honce' hstopping' hrunners hqueued hready
    refine ⟨⟨hok, by simpa [launch, honce'] using h.once, by simp [launch, hrun', hrun], by simp,
      fun id hid => ?_, by simp [launch, hrun', hrun]⟩, up_congr ?_ ?_ ?_⟩
    · obtain rfl : c.nextRunner = id := by simpa using hid
      exact .inl (by simp [launch])
    · simp [launch, hqueued, hready]
    · simp [launch, hstopping']
    · simp [hstarting]
  · cases hstep

private theorem startResumed_orderly (h : s.Orderly) (hok : s'.Ok) (hstep : s.startResumed = some s') :
    s'.Orderly ∧ (s'.Up ↔ s.Up) := by
  unfold startResumed at hstep
  split at hstep
  · rename_i runner hstarting
    have hlaunching := h.launching runner hstarting
    have hstop : ∀ pc, s.stopping = some pc → pc = .awaitingStart :=
      fun pc hpc => stopping_of_starting h.ok (by simp [hstarting]) hpc
    split at hstep
    · cases hstep
    · cases hstep
    · rename_i hrefused
      simp [hrefused] at hlaunching
    · rename_i status hlaunched _ hstatus
      obtain rfl := Option.some.inj hstep
      have halive : s.runners.get? runner = some (.alive false) := by
        refine hlaunching.resolve_left fun hlaunching => hlaunched ?_
        exact Option.some.inj (hstatus.symm.trans hlaunching)
      refine ⟨⟨hok, h.once, fun run hrun hpc => ?_, by simp, by simp, fun run hrun => ?_⟩,
        up_congr rfl Iff.rfl (by simp [hstarting])⟩
      · rcases hpc with ⟨id, hpc⟩ | hpc
        · cases hstop _ hpc
        · cases hstop _ hpc
      · obtain rfl := Option.some.inj hrun
        exact ⟨.inr ⟨runner, rfl, rfl⟩, fun _ => ⟨runner, rfl, rfl, halive⟩, by simp⟩
  · cases hstep

private theorem chained_orderly (h : s.Orderly) (hup : 0 < s.ready → s.Up) (hstep : s.chained = some s') :
    s'.Orderly ∧ (s'.Up ↔ s.Up) := by
  unfold chained at hstep
  split at hstep
  · cases hstep
  · rename_i hready
    obtain rfl := Option.some.inj hstep
    have hless : Orderly { s with ready := s.ready - 1 } := by
      refine ⟨⟨h.ok.owned, h.ok.starting, h.ok.once, h.ok.stopping, h.ok.stopped, h.ok.signals,
        h.ok.listeners⟩, h.once, h.stopped, h.starting, h.launching, fun run hrun => ?_⟩
      have hrunOk := h.run run hrun
      exact ⟨hrunOk.supervise, hrunOk.alive, hrunOk.stopping⟩
    exact ⟨start_orderly hless, iff_of_true (start_up hless) (hup (by omega))⟩

private theorem stopResumed_orderly (h : s.Orderly) (hok : s'.Ok) (hstep : s.stopResumed = some s') :
    s'.Orderly ∧ (s'.Up ↔ s.Up) := by
  have hstopRun : s.stopping ≠ none → s.starting = none → s' = s.stopRun →
      s'.Orderly ∧ (s'.Up ↔ s.Up) := by
    rintro hstopping hstarting rfl
    obtain ⟨hstopping', hqueued, hready⟩ := stopRun_frame (s := s)
    refine ⟨stopRun_orderly h hok hstarting, ?_⟩
    rw [up_of_stopping hstopping, up_of_stopping hstopping', hqueued, hready]
  unfold stopResumed at hstep
  split at hstep
  · rename_i hpc
    split at hstep
    · rename_i hstarting
      refine hstopRun (by simp [hpc]) (Option.isNone_iff_eq_none.mp hstarting) ?_
      rw [← stopOnce_eq h]
      exact (Option.some.inj hstep).symm
    · cases hstep
  · rename_i hpc
    split at hstep
    · exact hstopRun (by simp [hpc]) (h.ok.stopping _ hpc) (Option.some.inj hstep).symm
    · cases hstep
  · cases hstep

private theorem runnerStopped_orderly (h : s.Orderly) (hok : s'.Ok)
    (hstep : s.runnerStopped true = some s') : s'.Orderly ∧ (s'.Up ↔ s.Up) := by
  unfold runnerStopped at hstep
  split at hstep
  · rename_i runner hpc
    obtain rfl := Option.some.inj hstep
    refine ⟨⟨hok, h.once, fun run hrun _ => h.stopped run hrun (.inl ⟨runner, hpc⟩), h.starting,
      fun id hid => ?_, fun run hrun => ?_⟩, up_congr rfl (by simp [hpc]) (by simp [hpc])⟩
    · have hstarting := (h.ok.stopping _ hpc).1
      simp [stopRunner, hstarting] at hid
    · have hstopped := h.stopped run hrun (.inl ⟨runner, hpc⟩)
      exact ⟨(h.run run hrun).supervise, by simp [hstopped], by simp⟩
  · cases hstep

private theorem completionSettled_orderly (h : s.Orderly) (hok : s'.Ok)
    (hstep : s.completionSettled = some s') : s'.Orderly ∧ (s'.Up ↔ s.Up) := by
  unfold completionSettled at hstep
  split at hstep
  · rename_i hpc
    split at hstep
    · obtain rfl := Option.some.inj hstep
      exact ⟨⟨hok, h.once, by simp, h.starting, h.launching, by simp⟩,
        up_congr rfl (by simp [hpc]) (by simp [hpc])⟩
    · cases hstep
  · cases hstep

private theorem released_orderly (h : s.Orderly) (hok : s'.Ok) {ok : Bool}
    (horderly : s.orderly (.released ok) = true) (hstep : s.released ok = some s') :
    s'.Orderly ∧ (s'.Up ↔ s.Up) := by
  unfold released at hstep
  split at hstep
  · rename_i hpc
    obtain ⟨hstarting, -, -, hrun⟩ := h.ok.stopping _ hpc
    obtain rfl := Option.some.inj hstep
    refine ⟨⟨hok, by simpa [settleStop] using h.once, by simp [settleStop], by simp [settleStop, hstarting],
      by simp [settleStop, hstarting], by simp [settleStop, hrun]⟩, ?_⟩
    have hup : s.Up ↔ 0 < s.queued + s.ready := up_of_stopping (by simp [hpc])
    rw [hup]
    simp only [Up, settleStop, cleanupSignals_starting, cleanupSignals_run, hstarting, hrun, ne_eq,
      not_true_eq_false, or_self, and_false, or_false]
    cases ok with
    | true => simp only [if_true]; omega
    | false =>
      have hqueued : s.queued = 0 := by simpa [orderly] using horderly
      simp [hqueued]
  · cases hstep

private theorem superviseResumed_orderly (h : s.Orderly) (hok : s'.Ok)
    (hstep : s.superviseResumed options = some s') : s'.Orderly ∧ (s'.Up ↔ s.Up) := by
  unfold superviseResumed at hstep
  split at hstep
  · rename_i run hrun
    have hrunOk := h.run run hrun
    split at hstep
    · rename_i runner hwatching
      split at hstep
      · rename_i failed hended
        have hstopped : run.stopped = true := by
          cases hstopped : run.stopped with
          | true => rfl
          | false =>
            obtain ⟨id, -, hid, halive⟩ := hrunOk.alive hstopped
            obtain rfl : runner = id := by simpa [hwatching] using hid
            simp [hended] at halive
        simp only [hstopped, Bool.or_true, Bool.true_or, if_true] at hstep
        obtain rfl := Option.some.inj hstep
        refine ⟨⟨hok, h.once, fun run' hrun' hpc => ?_, h.starting, h.launching, fun run' hrun' => ?_⟩,
          up_congr rfl Iff.rfl (by simp [setSupervise, hrun])⟩
        · obtain rfl := Option.some.inj hrun'
          exact hstopped
        · obtain rfl := Option.some.inj hrun'
          exact ⟨.inl rfl, by simp [hstopped], hrunOk.stopping⟩
      · cases hstep
    · cases hstep
  · cases hstep

/-- No restart is under way. -/
private theorem supervise_cases (h : s.Orderly) {run : Run} (hrun : s.run = some run) :
    run.supervise ≠ .waiting ∧ (∀ id, run.supervise ≠ .relaunching id) ∧
      ∀ id, run.supervise ≠ .stoppingLate id := by
  rcases (h.run run hrun).supervise with hsettled | ⟨id, -, hwatching⟩
  · simp [hsettled]
  · simp [hwatching]

private theorem launched_orderly (h : s.Orderly) (hok : s'.Ok) {runner : RunnerId}
    (hstep : s.launched runner true = some s') : s'.Orderly ∧ (s'.Up ↔ s.Up) := by
  unfold launched at hstep
  split at hstep
  · rename_i hlaunching
    obtain rfl := Option.some.inj hstep
    refine ⟨⟨hok, h.once, h.stopped, h.starting, fun id hid => ?_, fun run hrun => ?_⟩,
      up_congr rfl Iff.rfl (by simp)⟩
    · simp only [if_true, Table.get?_insert]
      split
      · exact .inr rfl
      · exact h.launching id hid
    · have hrunOk := h.run run hrun
      refine ⟨hrunOk.supervise, fun hstopped => ?_, hrunOk.stopping⟩
      obtain ⟨id, hrunner, hwatching, halive⟩ := hrunOk.alive hstopped
      refine ⟨id, hrunner, hwatching, ?_⟩
      simp only [if_true, Table.get?_insert]
      split
      · rfl
      · exact halive
  · cases hstep

private theorem ended_orderly (h : s.Orderly) (hok : s'.Ok) {runner : RunnerId} {failed : Bool}
    (horderly : s.orderly (.ended runner failed) = true) (hstep : s.ended runner failed = some s') :
    s'.Orderly ∧ (s'.Up ↔ s.Up) := by
  simp only [orderly, decide_eq_true_eq] at horderly
  have hkept : ∀ id, s.runners.get? id = some (.alive false) →
      (s.runners.insert runner (.ended failed)).get? id = some (.alive false) := by
    intro id halive
    rw [Table.get?_insert_ne]
    · exact halive
    · rintro rfl
      exact horderly halive
  have hset : s.runners.get? runner ≠ some .launching →
      s' = { s with runners := s.runners.insert runner (.ended failed) } →
      s'.Orderly ∧ (s'.Up ↔ s.Up) := by
    rintro hlaunched rfl
    refine ⟨⟨hok, h.once, h.stopped, h.starting, fun id hid => ?_, fun run hrun => ?_⟩,
      up_congr rfl Iff.rfl (by simp)⟩
    · rcases h.launching id hid with hlaunching | halive
      · refine .inl ?_
        show (s.runners.insert runner (.ended failed)).get? id = some .launching
        rw [Table.get?_insert_ne]
        · exact hlaunching
        · rintro rfl
          exact hlaunched hlaunching
      · exact .inr (hkept id halive)
    · have hrunOk := h.run run hrun
      refine ⟨hrunOk.supervise, fun hstopped => ?_, hrunOk.stopping⟩
      obtain ⟨id, hrunner, hwatching, halive⟩ := hrunOk.alive hstopped
      exact ⟨id, hrunner, hwatching, hkept id halive⟩
  unfold ended at hstep
  split at hstep
  · rename_i halive
    exact hset (by simp [halive]) (Option.some.inj hstep).symm
  · rename_i hstopped
    exact hset (by simp [hstopped]) (Option.some.inj hstep).symm
  · cases hstep

/-- Everything but a call of start() or stop(). -/
def noCall : LifecycleEvent → Bool
  | .start | .stop => false
  | _ => true

private theorem Orderly.step (h : s.Orderly) (horderly : s.orderly e = true) (hcall : noCall e = true)
    (hstep : s.step options e = some s') : s'.Orderly ∧ (s'.Up ↔ s.Up) := by
  have hok : s'.Ok := by
    refine h.ok.step ?_ hstep
    cases e with
    | lateStopped ok =>
      cases ok with
      | true => rfl
      | false => cases horderly
    | _ => rfl
  cases e with
  | start | stop => cases hcall
  | runOnce | signal => cases horderly
  | startBody => exact startBody_orderly h hok hstep
  | startResumed => exact startResumed_orderly h hok hstep
  | startReleased =>
    simp only [Lifecycle.step, Lifecycle.startReleased] at hstep
    split at hstep
    · rename_i hstarting
      exact absurd hstarting h.starting
    · cases hstep
  | chained => exact chained_orderly h (fun hready => .inl (by omega)) hstep
  | stopResumed => exact stopResumed_orderly h hok hstep
  | runnerStopped ok =>
    obtain rfl : ok = true := horderly
    exact runnerStopped_orderly h hok hstep
  | completionSettled => exact completionSettled_orderly h hok hstep
  | released ok => exact released_orderly h hok horderly hstep
  | superviseResumed => exact superviseResumed_orderly h hok hstep
  | waited =>
    simp only [Lifecycle.step, Lifecycle.waited] at hstep
    split at hstep
    · rename_i run hrun
      split at hstep
      · rename_i hwaiting
        exact absurd hwaiting (supervise_cases h hrun).1
      · cases hstep
    · cases hstep
  | relaunched =>
    simp only [Lifecycle.step, Lifecycle.relaunched] at hstep
    split at hstep
    · rename_i run hrun
      split at hstep
      · rename_i hrelaunching
        exact absurd hrelaunching ((supervise_cases h hrun).2.1 _)
      · cases hstep
    · cases hstep
  | lateStopped ok =>
    simp only [Lifecycle.step, Lifecycle.lateStopped] at hstep
    split at hstep
    · rename_i run hrun
      split at hstep
      · rename_i hlate
        exact absurd hlate ((supervise_cases h hrun).2.2 _)
      · cases hstep
    · cases hstep
  | onceResumed => simp [Lifecycle.step, Lifecycle.onceResumed, h.once] at hstep
  | launched runner ok =>
    obtain rfl : ok = true := horderly
    exact launched_orderly h hok hstep
  | ended runner failed => exact ended_orderly h hok horderly hstep

end Lifecycle

/-! ## The last call -/

/-- The last call wants a runner, or a start() that waited for a shutdown overtook it. -/
def LastCall.Up : Option LastCall → Prop
  | some .start | some (.stop true) => True
  | _ => False

variable {s s' : Lifecycle} {e : LifecycleEvent} {options : LifecycleOptions} {last : Option LastCall}

open Lifecycle in
private theorem up_step (h : s.Orderly) (horderly : s.orderly e = true)
    (hup : s.Up ↔ LastCall.Up last) (hstep : s.step options e = some s') :
    s'.Orderly ∧ (s'.Up ↔ LastCall.Up (noteCall s e s' last)) := by
  have hother : noCall e = true → noteCall s e s' last = last →
      s'.Orderly ∧ (s'.Up ↔ LastCall.Up (noteCall s e s' last)) := by
    intro hcall hnote
    obtain ⟨h', hup'⟩ := h.step horderly hcall hstep
    exact ⟨h', by rw [hnote, hup', hup]⟩
  cases e with
  | start =>
    obtain rfl := Option.some.inj hstep
    exact ⟨start_orderly h, iff_of_true (start_up h) trivial⟩
  | stop =>
    obtain rfl := Option.some.inj hstep
    refine ⟨stop_orderly h, (stop_up h).trans ?_⟩
    simp only [noteCall]
    cases hwaiting : decide (0 < s.queued + s.ready) with
    | true => exact iff_of_true (of_decide_eq_true hwaiting) trivial
    | false => exact iff_of_false (of_decide_eq_false hwaiting) id
  | _ => exact hother rfl rfl

/-- Once all calls have settled, what is up is a runner that is alive. -/
private theorem alive_iff_up (h : s.Orderly) (hsettled : s.callsSettled) :
    (∃ id asked, s.runners.get? id = some (.alive asked)) ↔ s.Up := by
  obtain ⟨hstarting, hstopping, hqueued, hready⟩ := hsettled
  constructor
  · rintro ⟨id, asked, halive⟩
    have howner := h.ok.owned id (by simp [Lifecycle.busy, halive, RunnerStatus.busy])
    refine .inr ⟨hstopping, .inr fun hrun => ?_⟩
    simp [Lifecycle.owner, hstarting, hrun] at howner
  · rintro (hpos | ⟨-, hup⟩)
    · omega
    · obtain ⟨run, hrun⟩ := Option.ne_none_iff_exists'.mp (hup.resolve_left (by simp [hstarting]))
      have hrunOk := h.run run hrun
      cases hstopped : run.stopped with
      | true => exact absurd hstopping (hrunOk.stopping hstopped)
      | false =>
        obtain ⟨id, -, -, halive⟩ := hrunOk.alive hstopped
        exact ⟨id, false, halive⟩

/-- Once all calls have settled a runner is alive just if the last call was start(), unless the last
call was a stop() while a start() waited for a shutdown. -/
theorem follows_last_call {p : Lifecycle × Option LastCall}
    (hreach : (lastCall options).ReachableWith (fun p e => p.1.orderly e = true) p)
    (hsettled : p.1.callsSettled) :
    ((∃ id asked, p.1.runners.get? id = some (.alive asked)) ↔ p.2 = some .start) ↔
      p.2 ≠ some (.stop true) := by
  have hinv : p.1.Orderly ∧ (p.1.Up ↔ LastCall.Up p.2) := by
    refine hreach.invariant (I := fun p => p.1.Orderly ∧ (p.1.Up ↔ LastCall.Up p.2)) ?_ ?_
    · rintro ⟨s, last⟩ ⟨hs, rfl⟩
      obtain rfl : s = Lifecycle.initial := hs
      refine ⟨⟨?_, ?_, ?_, ?_, ?_, ?_⟩, ?_⟩
      · refine ⟨?_, ?_, ?_, ?_, ?_, ?_, ?_⟩
        all_goals simp [Lifecycle.initial, Lifecycle.busy]
      all_goals simp [Lifecycle.initial, Lifecycle.Up, LastCall.Up]
    · rintro ⟨s, last⟩ e ⟨s', last'⟩ - ⟨h, hup⟩ horderly hstep
      obtain ⟨hstep, hnote⟩ := TransitionSystem.observe_step_iff.mp hstep
      obtain rfl : last' = Lifecycle.noteCall s e s' last := hnote
      exact up_step h horderly hup hstep
  rw [alive_iff_up hinv.1 hsettled, hinv.2]
  rcases p.2 with _ | _ | overtaken
  · simp [LastCall.Up]
  · simp [LastCall.Up]
  · cases overtaken <;> simp [LastCall.Up]

namespace CallTrace

def defaults : LifecycleOptions := ⟨false, true⟩

def started : List LifecycleEvent := [.start, .startBody, .launched 0 true, .startResumed]

/-- start(), stop() and, once that resolved, start(). -/
def restarted : List LifecycleEvent :=
  started ++ [.stop, .runnerStopped true, .ended 0 false, .superviseResumed, .completionSettled,
    .released true, .start, .startBody, .launched 1 true, .startResumed]

/-- start(), stop(), start(), stop(): the last two share the shutdown. -/
def overtaken : List LifecycleEvent :=
  started ++ [.stop, .start, .stop, .runnerStopped true, .ended 0 false, .superviseResumed,
    .completionSettled, .released true, .chained, .startBody, .launched 1 true, .startResumed]

def settled (s : Lifecycle) : Bool :=
  s.starting = none && s.stopping = none && s.queued = 0 && s.ready = 0

end CallTrace

theorem follows_last_call_started : ∃ p : Lifecycle × Option LastCall, p.1.callsSettled ∧
    p.1.runners.get? 0 = some (.ended false) ∧ p.1.runners.get? 1 = some (.alive false) ∧
    (((∃ id asked, p.1.runners.get? id = some (.alive asked)) ↔ p.2 = some .start) ↔
      p.2 ≠ some (.stop true)) := by
  have hinit : (lastCall CallTrace.defaults).Init (.initial, none) := ⟨rfl, rfl⟩
  obtain ⟨p, hreach, hp⟩ := TransitionSystem.exists_reachableWith_of_runWith CallTrace.restarted
    (fun p => CallTrace.settled p.1 && p.1.runners.get? 0 = some (.ended false) &&
      p.1.runners.get? 1 = some (.alive false))
    (fun (p : Lifecycle × Option LastCall) e (hc : p.1.orderly e = true) => hc) hinit (by decide)
  simp only [CallTrace.settled, Bool.and_eq_true, decide_eq_true_eq] at hp
  have hsettled : p.1.callsSettled := ⟨hp.1.1.1.1.1, hp.1.1.1.1.2, hp.1.1.1.2, hp.1.1.2⟩
  exact ⟨p, hsettled, hp.1.2, hp.2, follows_last_call hreach hsettled⟩

/-- The last call was stop(), all calls have settled, and a runner is alive. -/
theorem stop_overtaken : ∃ p : Lifecycle × Option LastCall,
    (lastCall CallTrace.defaults).ReachableWith (fun p e => p.1.orderly e = true) p ∧
      p.1.callsSettled ∧ p.2 = some (.stop true) ∧ p.1.runners.get? 1 = some (.alive false) := by
  have hinit : (lastCall CallTrace.defaults).Init (.initial, none) := ⟨rfl, rfl⟩
  obtain ⟨p, hreach, hp⟩ := TransitionSystem.exists_reachableWith_of_runWith CallTrace.overtaken
    (fun p => CallTrace.settled p.1 && p.2 = some (.stop true) &&
      p.1.runners.get? 1 = some (.alive false))
    (fun (p : Lifecycle × Option LastCall) e (hc : p.1.orderly e = true) => hc) hinit (by decide)
  simp only [CallTrace.settled, Bool.and_eq_true, decide_eq_true_eq] at hp
  exact ⟨p, hreach, ⟨hp.1.1.1.1.1, hp.1.1.1.1.2, hp.1.1.1.2, hp.1.1.2⟩, hp.1.2, hp.2⟩

end BetterGraphileWorker
