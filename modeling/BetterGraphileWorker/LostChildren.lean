-- SUMMARY: The sweep for lost children: it fails a wait only for a child that has ended for good, whatever snapshot it reads.
import BetterGraphileWorker.Accounting
import BetterGraphileWorker.Lineage
import BetterGraphileWorker.System.Ended

/-!
# Lost children

A sweep reads one snapshot and writes later: it skips wait rows that others have locked
and checks rows again that were written since. `sweeping` takes the snapshot in a step of
its own, so that everything else can commit before the sweep writes.
-/

namespace BetterGraphileWorker

/-! ## Sweeps with snapshots -/

structure SweepState where
  base : State
  /-- The snapshots of the sweeps that have not written yet. -/
  seen : Table ℕ Db

inductive SweepEvent where
  | base (e : Event)
  | snapshot (i : ℕ)
  | sweep (i : ℕ) (now : Time) (skipped : WaitKey → Bool)

/-- The snapshot joins this wait row to a child that has ended. -/
def Db.seesLost (snap : Db) (key : WaitKey) (wait : Wait) : Bool :=
  (snap.waits.get? key).any fun old =>
    old.pending && old.child = wait.child && Job.lost (snap.jobs.get? old.child)

/-- What a sweep writes: the rows its snapshot selects, unless they are locked or have changed. -/
def seenReport (snap : Db) (skipped : WaitKey → Bool) : Report := fun key wait =>
  if !skipped key && snap.seesLost key wait then
    some (.failed "ChildJobLostError" (lostError (snap.jobs.get? wait.child)))
  else none

namespace SweepState

variable (p : SweepState)

def sweep (i : ℕ) (now : Time) (skipped : WaitKey → Bool) : Option SweepState :=
  match p.seen.get? i with
  | none => none
  | some snap =>
    let report := seenReport snap skipped
    if now ≤ p.base.now ∧ p.base.reportFree report then
      some ⟨{ p.base with db := reportWaits now report p.base.db }, p.seen.erase i⟩
    else none

def step : SweepEvent → Option SweepState
  | .base (.sweepLost _ _ _) => none
  | .base e => (p.base.exec e).map fun res => { p with base := res.1 }
  | .snapshot i => some { p with seen := p.seen.insert i p.base.db }
  | .sweep i now skipped => p.sweep i now skipped

/-- The wait rows that a sweep leaves alone. -/
def skips (snap : Db) (skipped : WaitKey → Bool) : WaitKey → Bool := fun key =>
  skipped key || !(p.base.db.waits.get? key).any (snap.seesLost key)

/-- The step of the base system that a step amounts to. -/
def baseEvent : SweepEvent → Option Event
  | .base e => some e
  | .snapshot _ => none
  | .sweep i now skipped => (p.seen.get? i).map fun snap =>
    .sweepLost now snap.jobs.get? (p.skips snap skipped)

end SweepState

def sweeping : TransitionSystem SweepState SweepEvent where
  Init p := p = ⟨State.initial, ∅⟩
  step p e := p.step e

/-! ## The history of a wait -/

structure Sweeps where
  chain : Lineage
  /-- The wait's child was running or had ended when the wait was created. -/
  early : WaitKey → Bool
  /-- A run of the wait's child has reported since. -/
  reported : WaitKey → Bool
  /-- Some sweep has failed a wait for this job. -/
  lost : JobId → Bool

def Sweeps.start : Sweeps := ⟨.start, fun _ => false, fun _ => false, fun _ => false⟩

/-- The step settles a run of the job with a report. -/
def State.reportsFor (s : State) (id : JobId) : Event → Bool
  | .settle _ k settle _ => settle.report.isSome &&
      (s.attempts.get? k).any fun a => a.job.id = id && (s.db.owned a.job).isSome
  | _ => false

/-- The step is a sweep that fails a wait for the job. -/
def State.failsWait (s : State) (s' : State) (id : JobId) : Event → Bool
  | .sweepLost _ _ _ => s.db.waits.any fun key wait =>
      wait.child = id && wait.pending && (s'.db.waits.get? key).any (!·.pending)
  | _ => false

def Sweeps.record (s : State) (e : Event) (s' : State) (w : Sweeps) : Sweeps where
  chain := w.chain.note s e s'
  early key :=
    if (s.creates e).any (·.1 = key.1) then
      (s'.db.waits.get? key).any fun wait => !(s'.db.jobs.get? wait.child).any Job.available
    else w.early key
  reported key :=
    (s.db.waits.get? key).any fun wait => w.reported key || s.reportsFor wait.child e
  lost id := w.lost id || s.failsWait s' id e

def Sweeps.note (p : SweepState) (e : SweepEvent) (p' : SweepState) (w : Sweeps) : Sweeps :=
  match p.baseEvent e with
  | none => w
  | some e => w.record p.base e p'.base

/-- The system with the history of its waits. -/
def sweeps : TransitionSystem (SweepState × Sweeps) SweepEvent := sweeping.observe .start Sweeps.note

/--
A statement sees what was committed before it: the snapshot of a run's report has every wait row
that was created while its child was not running.
-/
def SeesWaits (s : State) (w : Sweeps) : Event → Prop
  | .settle _ k _ visible => ∀ key wait a, s.db.waits.get? key = some wait →
      s.attempts.get? k = some a → wait.child = a.job.id → w.early key = false → visible key = true
  | _ => True

def SweepCond (p : SweepState × Sweeps) (e : SweepEvent) : Prop :=
  ∀ e', p.1.baseEvent e = some e' → LockTimesDiffer p.1.base e' ∧ SeesWaits p.1.base p.2 e'

/-! ## A sweep is a step of the base system -/

variable {p p' : SweepState} {e : SweepEvent} {w : Sweeps}

/-- What a snapshot saw as ended is ended. -/
def SweepState.SeenOk (p : SweepState) : Prop :=
  ∀ i snap, p.seen.get? i = some snap → ∀ key wait, snap.waits.get? key = some wait →
    Job.lost (snap.jobs.get? wait.child) = true →
    wait.child < p.base.db.nextId ∧ Job.lost (p.base.db.jobs.get? wait.child) = true

private theorem lost_of_seesLost (hseen : p.SeenOk) {i : ℕ} {snap : Db} (hi : p.seen.get? i = some snap)
    {key : WaitKey} {wait : Wait} (h : snap.seesLost key wait = true) :
    Job.lost (p.base.db.jobs.get? wait.child) = true := by
  obtain ⟨old, hget, hold⟩ := (Option.any_eq_true _ _).mp h
  simp only [Bool.and_eq_true, decide_eq_true_eq] at hold
  obtain ⟨⟨-, hchild⟩, hlost⟩ := hold
  rw [← hchild]
  exact (hseen i snap hi key old hget hlost).2

/-- What the snapshot selects is what the sweep would select when it writes. -/
private theorem seenReport_agrees (hseen : p.SeenOk) {i : ℕ} {snap : Db}
    (hi : p.seen.get? i = some snap) (skipped : WaitKey → Bool) :
    (seenReport snap skipped).Agrees (lostReport p.base.db snap.jobs.get? (p.skips snap skipped))
      p.base.db := by
  intro key wait hget
  simp only [seenReport, lostReport, SweepState.skips, hget, Option.any_some]
  cases hsees : snap.seesLost key wait with
  | false => simp
  | true => simp [lost_of_seesLost hseen hi hsees]

theorem exec_of_step (hseen : p.SeenOk) (h : p.step e = some p') :
    match p.baseEvent e with
    | none => p'.base = p.base
    | some e => ∃ r, p.base.exec e = some (p'.base, r) := by
  cases e with
  | snapshot i =>
    obtain rfl := Option.some.inj h
    rfl
  | base e =>
    have hmap : (p.base.exec e).map (fun res => { p with base := res.1 }) = some p' := by
      cases e with
      | sweepLost => cases h
      | _ => exact h
    obtain ⟨⟨s', r⟩, hexec, rfl⟩ := Option.map_eq_some_iff.mp hmap
    exact ⟨r, hexec⟩
  | sweep i now skipped =>
    simp only [SweepState.step, SweepState.sweep] at h
    split at h
    · cases h
    · rename_i snap hi
      split at h
      · rename_i hguard
        obtain rfl := Option.some.inj h
        have hagrees := seenReport_agrees hseen hi skipped
        have hfree : p.base.reportFree (lostReport p.base.db snap.jobs.get? (p.skips snap skipped)) = true := by
          rw [← hguard.2, State.reportFree, State.reportFree, reported_congr hagrees]
        simp only [SweepState.baseEvent, hi, Option.map_some]
        refine ⟨.done, ?_⟩
        rw [State.exec, if_pos ⟨hguard.1, hfree⟩, sweepLost, reportWaits_congr hagrees]
      · cases h

/-! ## Waits that a sweep may fail -/

/-- Nobody has reported to an unresolved wait of a fresh child, nor continued the child away. -/
def CleanWaits (s : State) (w : Sweeps) : Prop :=
  ∀ key wait, s.db.waits.get? key = some wait → wait.pending = true → w.early key = false →
    w.chain.dropped key = false → w.chain.continued wait.child = false ∧ w.reported key = false

section
variable {s s' : State} {e : Event} {r : Reply} {key : WaitKey}

/-- A report resolves the waits that its snapshot sees. -/
private theorem not_pending_of_report (h : s.exec e = some (s', r)) {wait wait' : Wait}
    (hget : s.db.waits.get? key = some wait) (hget' : s'.db.waits.get? key = some wait')
    (hearly : w.early key = false) (hsees : SeesWaits s w e)
    (hreports : s.reportsFor wait.child e = true) : wait'.pending = false := by
  cases e with
  | settle now k settle visible =>
    obtain ⟨a, ha, -, -, hcases⟩ := State.settle_cases h
    simp only [State.reportsFor, ha, Option.any_some, Bool.and_eq_true, decide_eq_true_eq] at hreports
    obtain ⟨hsome, hid, hown⟩ := hreports
    obtain ⟨report, hreport⟩ := Option.isSome_iff_exists.mp hsome
    have hvisible := hsees key wait a hget ha hid.symm hearly
    rcases hcases with ⟨hnone, -⟩ | ⟨db, hsettle, rfl, -, -⟩
    · simp [hnone] at hown
    obtain ⟨job, db₁, db₂, -, hdb₁, hdb₂, rfl⟩ := settleJob_true hsettle
    rcases hdb₂ with ⟨hnone, -⟩ | ⟨report', hreport', rfl⟩
    · simp [hreport] at hnone
    have hwaits : db₁.waits = s.db.waits := by
      rcases hdb₁ with rfl | ⟨outcome, rfl⟩ <;> rfl
    simp only [settleRow_waits, get?_reportWaits_waits, hwaits, hget, Option.map_some,
      Option.some.injEq] at hget'
    subst hget'
    cases hpending : wait.pending with
    | false => simp [Wait.reported, Report.resolution, hpending]
    | true =>
      have hresolution : (childReport a.job.id report' visible).resolution key wait = some report' := by
        simp [Report.resolution, hpending, childReport, hvisible, hid]
      simp [Wait.reported, hresolution, Wait.setResult, Wait.pending]
  | _ => cases hreports

theorem clean_exec (hlin : Lineage.Inv s w.chain) (hwf : Wf s) (hdist : DistinctLocks s)
    (hlin' : Lineage.Inv s' (w.chain.note s e s'))
    (hgrouped : ∀ key idx wait, s.db.waits.get? (key, idx) = some wait → s.db.groups.get? key ≠ none)
    (hsees : SeesWaits s w e) (hclean : CleanWaits s w) (h : s.exec e = some (s', r)) :
    CleanWaits s' (w.record s e s') := by
  intro key wait' hget' hpending' hearly hdropped
  have hcreates : ∀ wait, s.db.waits.get? key = some wait →
      (s.creates e).any (·.1 = key.1) = false := by
    intro wait hget
    cases hc : s.creates e with
    | none => rfl
    | some created =>
      obtain ⟨now, ids, hnone, -⟩ := tables_of_creates hwf h hc
      refine decide_eq_false fun hkey => ?_
      exact hgrouped key.1 key.2 wait hget (hkey ▸ hnone)
  -- A row that keeps its child was clean before.
  have hkept : ∀ wait, s.db.waits.get? key = some wait → wait.pending = true →
      wait.child = wait'.child →
      (w.record s e s').chain.continued wait'.child = false ∧
        (w.record s e s').reported key = false := by
    intro wait hget hpending hchild
    simp only [Sweeps.record, hcreates wait hget, Bool.false_eq_true, if_false] at hearly
    simp only [Sweeps.record, Lineage.note, hget, Option.any_some, Bool.or_eq_false_iff] at hdropped
    obtain ⟨hcontinued, hreported⟩ := hclean key wait hget hpending hearly hdropped.1
    refine ⟨?_, ?_⟩
    · rcases continues_cases hwf h with ⟨hnone, -⟩ |
        ⟨id, k, now, job, runAt, traceparent, progress, a, -, hsome, hc⟩
      · simpa [Sweeps.record, Lineage.note, hnone, ← hchild] using hcontinued
      -- A continued child takes its clean waits along, so a wait that stays has another child.
      · have hne : wait'.child ≠ id := by
          intro hid
          have hmoved := (handover hwf hdist hlin hc).moved hget (hchild.trans hid) hpending hdropped.1
          rw [hget'] at hmoved
          have hnext : wait'.child = s.db.nextId := by rw [Option.some.inj hmoved]
          exact absurd (hlin.children key wait hget) (by simp [hchild, hnext])
        simpa [Sweeps.record, Lineage.note, hsome, Function.update_apply, hne, hchild] using hcontinued
    · simp only [Sweeps.record, hget, Option.any_some, hreported, Bool.false_or]
      by_contra hreports
      have hfalse := not_pending_of_report h hget hget' hearly hsees (by simpa using hreports)
      rw [hpending'] at hfalse
      cases hfalse
  have hchange := State.wait_change hwf h key
  rw [hget'] at hchange
  generalize hget : s.db.waits.get? key = before at hchange
  cases hchange with
  | same => exact hkept wait' hget hpending' rfl
  -- A row that is pending now was not in the report.
  | reported wait he =>
    exact hkept wait hget (Wait.pending_of_reported hpending') Wait.reported_child.symm
  | @created _ id child prepared k now call suspended he htx hr hkey hmem hbelow =>
    have hc : s.creates e = some ((id, call.waitId), call) := by simp [he, State.creates, htx]
    have hnone : s.db.waits.get? key = none := by
      cases hbefore : s.db.waits.get? key with
      | none => rfl
      | some wait =>
        have hfalse := hcreates wait hbefore
        simp [hc, hkey] at hfalse
    have havailable : (s'.db.jobs.get? child).any Job.available = true := by
      simpa [Sweeps.record, hc, hkey, hget'] using hearly
    obtain ⟨job, hrow, hav⟩ := (Option.any_eq_true _ _).mp havailable
    refine ⟨?_, by simp [Sweeps.record, hnone]⟩
    by_contra hcontinued
    have hspent := (hlin'.spent child job (by simpa [Sweeps.record] using hcontinued) hrow).2
    simp [Job.available, hspent] at hav
  -- The row follows its child to the continuation, whose id nobody has had before.
  | @moved wait id k now job runAt traceparent progress he htx hr hchild hpending =>
    have hc := hcreates wait hget
    simp only [Sweeps.record, hc, Bool.false_eq_true, if_false] at hearly
    simp only [Sweeps.record, Lineage.note, hget, Option.any_some, Bool.or_eq_false_iff] at hdropped
    obtain ⟨-, hreported⟩ := hclean key wait hget hpending hearly hdropped.1
    refine ⟨?_, by simp [Sweeps.record, hget, hreported, he, State.reportsFor]⟩
    have hlt : id < s.db.nextId := hchild ▸ hlin.children key wait hget
    have hfresh := (hlin.fresh s.db.nextId le_rfl).2
    simp only [Sweeps.record, Lineage.note, State.continues, he]
    split
    · simp only [Function.update_apply]
      rw [if_neg hlt.ne']
      exact hfresh
    · exact hfresh

/-- A child for which a sweep fails a wait has ended. -/
theorem ended_of_failsWait (hlin : Lineage.Inv s w.chain)
    (h : s.exec e = some (s', r)) {id : JobId} (hfails : s.failsWait s' id e = true) :
    id < s.db.nextId ∧ Job.lost (s.db.jobs.get? id) = true := by
  cases e with
  | sweepLost now seen skipped =>
    simp only [State.failsWait] at hfails
    obtain ⟨key, wait, hget, hwait⟩ := Table.any_iff.mp hfails
    simp only [Bool.and_eq_true, decide_eq_true_eq] at hwait
    obtain ⟨⟨rfl, hpending⟩, hafter⟩ := hwait
    refine ⟨hlin.children key wait hget, ?_⟩
    obtain ⟨wait', hget', hresolved⟩ := (Option.any_eq_true _ _).mp hafter
    obtain ⟨-, rfl⟩ := State.sweepLost_cases h
    simp only [sweepLost, get?_reportWaits_waits, hget, Option.map_some, Option.some.injEq] at hget'
    subst hget'
    by_contra hlive
    have hnone : (lostReport s.db seen skipped).resolution key wait = none := by
      simp [Report.resolution, lostReport, hlive]
    simp [Wait.reported, hnone, hpending] at hresolved
  | _ => cases hfails

end

structure Sweeps.Inv (p : SweepState) (w : Sweeps) : Prop where
  reach : lineage.ReachableWith (fun p e => LockTimesDiffer p.1 e) (p.base, w.chain)
  seen : p.SeenOk
  ended : ∀ id, w.lost id = true → id < p.base.db.nextId ∧
    Job.lost (p.base.db.jobs.get? id) = true
  clean : CleanWaits p.base w

/-- Every snapshot was taken in this state or before. -/
private theorem seen_origin (h : p.step e = some p') {i : ℕ} {snap : Db}
    (hi : p'.seen.get? i = some snap) :
    (∃ i, p.seen.get? i = some snap) ∨ snap = p.base.db ∧ p'.base = p.base := by
  cases e with
  | snapshot j =>
    obtain rfl := Option.some.inj h
    simp only [Table.get?_insert] at hi
    split at hi
    · exact .inr ⟨(Option.some.inj hi).symm, rfl⟩
    · exact .inl ⟨i, hi⟩
  | base e =>
    have hmap : (p.base.exec e).map (fun res => { p with base := res.1 }) = some p' := by
      cases e with
      | sweepLost => cases h
      | _ => exact h
    obtain ⟨res, -, rfl⟩ := Option.map_eq_some_iff.mp hmap
    exact .inl ⟨i, hi⟩
  | sweep j now skipped =>
    simp only [SweepState.step, SweepState.sweep] at h
    split at h
    · cases h
    · split at h
      · obtain rfl := Option.some.inj h
        simp only [Table.get?_erase] at hi
        split at hi
        · cases hi
        · exact .inl ⟨i, hi⟩
      · cases h

theorem Sweeps.inv_step (hinv : Sweeps.Inv p w) (hcond : SweepCond (p, w) e)
    (h : p.step e = some p') : Sweeps.Inv p' (Sweeps.note p e p' w) := by
  obtain ⟨hwf, hdist, hlin⟩ := Lineage.inv_reachable hinv.reach
  have hexec := exec_of_step hinv.seen h
  unfold Sweeps.note
  -- What had ended before the step has ended after it.
  have hpersists : ∀ id, id < p.base.db.nextId → Job.lost (p.base.db.jobs.get? id) = true →
      id < p'.base.db.nextId ∧ Job.lost (p'.base.db.jobs.get? id) = true := by
    intro id hid hlost
    cases hbase : p.baseEvent e with
    | none =>
      rw [hbase] at hexec
      rw [hexec]
      exact ⟨hid, hlost⟩
    | some e₀ =>
      rw [hbase] at hexec
      obtain ⟨r, hexec⟩ := hexec
      exact ⟨hid.trans_le (State.db_ok hwf hexec).1, lost_persists hwf hexec hid hlost⟩
  have hseen : p'.SeenOk := by
    intro i snap hi key wait hget hlost
    rcases seen_origin h hi with ⟨j, hj⟩ | ⟨rfl, hbase⟩
    · obtain ⟨hid, hended⟩ := hinv.seen j snap hj key wait hget hlost
      exact hpersists _ hid hended
    · rw [hbase]
      exact ⟨hlin.children key wait hget, hlost⟩
  cases hbase : p.baseEvent e with
  | none =>
    rw [hbase] at hexec
    exact ⟨hexec ▸ hinv.reach, hseen, fun id hid => hexec ▸ hinv.ended id hid, hexec ▸ hinv.clean⟩
  | some e₀ =>
    rw [hbase] at hexec
    obtain ⟨r, hexec⟩ := hexec
    obtain ⟨hdiffer, hsees⟩ := hcond e₀ hbase
    have hreach' : lineage.ReachableWith (fun p e => LockTimesDiffer p.1 e)
        (p'.base, w.chain.note p.base e₀ p'.base) :=
      .step hinv.reach hdiffer
        (TransitionSystem.observe_step_iff.mpr ⟨system_step_iff.mpr ⟨r, hexec⟩, rfl⟩)
    obtain ⟨-, -, hlin'⟩ := Lineage.inv_reachable hreach'
    have hgrouped : ∀ key idx wait, p.base.db.waits.get? (key, idx) = some wait →
        p.base.db.groups.get? key ≠ none := by
      have hrun : system.Reachable p.base := .of_observe (fun _ _ _ => trivial) hinv.reach
      obtain ⟨ledger, haccounted⟩ := hrun.exists_observe .empty Ledger.note
      exact (accounting_reachable haccounted).grouped
    refine ⟨hreach', hseen, fun id hlost => ?_,
      clean_exec hlin hwf hdist hlin' hgrouped hsees hinv.clean hexec⟩
    rcases Bool.or_eq_true_iff.mp hlost with hbefore | hfails
    · obtain ⟨hid, hended⟩ := hinv.ended id hbefore
      exact hpersists id hid hended
    · obtain ⟨hid, hended⟩ := ended_of_failsWait hlin hexec hfails
      exact hpersists id hid hended

theorem Sweeps.inv_reachable {q : SweepState × Sweeps} (hreach : sweeps.ReachableWith SweepCond q) :
    Sweeps.Inv q.1 q.2 := by
  refine hreach.invariant (I := fun q => Sweeps.Inv q.1 q.2) ?_ ?_
  · rintro ⟨p, w⟩ ⟨hp, hw⟩
    obtain rfl : p = ⟨State.initial, ∅⟩ := hp
    obtain rfl : w = Sweeps.start := hw
    exact ⟨.init ⟨rfl, rfl⟩, fun _ _ hi => (by cases hi), fun _ hid => (by cases hid),
      fun _ _ hget => (by cases hget)⟩
  · rintro ⟨p, w⟩ e ⟨p', w'⟩ - hinv hcond hstep
    obtain ⟨hstep, hw'⟩ := TransitionSystem.observe_step_iff.mp hstep
    simp only at hw'
    subst hw'
    exact Sweeps.inv_step hinv hcond hstep

/-! ## What a sweep writes -/

/--
The sweep fails a wait whose child has ended. Unless the child ran or ended before the wait was
created, or its payload was replaced since, it has neither reported nor continued.
-/
structure FailsLost (p : SweepState) (w : Sweeps) (snap : Db) (now : Time) (key : WaitKey)
    (wait wait' : Wait) : Prop where
  pending : wait.pending = true
  result : wait' = wait.setResult (ChildReport.failed "ChildJobLostError"
    (lostError (snap.jobs.get? wait.child))).toJson now
  ended : Job.lost (p.base.db.jobs.get? wait.child) = true
  silent : w.early key = false → w.chain.dropped key = false →
    w.chain.continued wait.child = false ∧ w.reported key = false

private theorem swept_cases (hinv : Sweeps.Inv p w) {i : ℕ} {snap : Db}
    (hi : p.seen.get? i = some snap) {key : WaitKey} {wait : Wait}
    (hget : p.base.db.waits.get? key = some wait) (now : Time) (skipped : WaitKey → Bool) :
    let wait' := Wait.reported now (seenReport snap skipped) key wait
    (wait' = wait ∨ FailsLost p w snap now key wait wait') ∧
      (wait.pending = true → skipped key = false → snap.seesLost key wait = true →
        FailsLost p w snap now key wait wait') := by
  have hfails : wait.pending = true → skipped key = false → snap.seesLost key wait = true →
      FailsLost p w snap now key wait
        (Wait.reported now (seenReport snap skipped) key wait) := by
    intro hpending hskipped hsees
    have hresolution : (seenReport snap skipped).resolution key wait =
        some (.failed "ChildJobLostError" (lostError (snap.jobs.get? wait.child))) := by
      simp [Report.resolution, hpending, seenReport, hskipped, hsees]
    exact {
      pending := hpending
      result := by simp [Wait.reported, hresolution]
      ended := lost_of_seesLost hinv.seen hi hsees
      silent := hinv.clean key wait hget hpending }
  refine ⟨?_, hfails⟩
  cases hwrites : (seenReport snap skipped).resolution key wait with
  | none => exact .inl (by simp [Wait.reported, hwrites])
  | some report =>
    simp only [Report.resolution, seenReport] at hwrites
    split at hwrites
    · rename_i hpending
      split at hwrites
      · rename_i hguard
        simp only [Bool.and_eq_true, Bool.not_eq_true'] at hguard
        exact .inr (hfails hpending hguard.1 hguard.2)
      · cases hwrites
    · cases hwrites

/--
A sweep fails a wait only for a child that has ended for good: nobody claims it or owns it from
then on. It fails every wait that its snapshot selects and that it can lock.
-/
theorem sweep_fails_lost_only {q : SweepState × Sweeps} (hreach : sweeps.ReachableWith SweepCond q) :
    (∀ id, q.2.lost id = true → Job.lost (q.1.base.db.jobs.get? id) = true ∧
      (∀ now pool jobOutcomes, q.1.base.exec (.claim now pool id jobOutcomes) = none) ∧
      ∀ helpers, helpers.id = id → q.1.base.db.owned helpers = none) ∧
    ∀ i now skipped p', q.1.sweep i now skipped = some p' →
      ∃ snap, q.1.seen.get? i = some snap ∧
        ∀ key wait, q.1.base.db.waits.get? key = some wait →
          ∃ wait', p'.base.db.waits.get? key = some wait' ∧
            (wait' = wait ∨ FailsLost q.1 q.2 snap now key wait wait') ∧
            (wait.pending = true → skipped key = false → snap.seesLost key wait = true →
              FailsLost q.1 q.2 snap now key wait wait') := by
  have hinv := Sweeps.inv_reachable hreach
  refine ⟨fun id hid => ?_, fun i now skipped p' h => ?_⟩
  · obtain ⟨-, hlost⟩ := hinv.ended id hid
    refine ⟨hlost, fun now pool jobOutcomes => not_claimed_of_lost hlost, ?_⟩
    rintro helpers rfl
    exact not_owned_of_lost hlost
  · simp only [SweepState.sweep] at h
    split at h
    · cases h
    · rename_i snap hi
      split at h
      · obtain rfl := Option.some.inj h
        refine ⟨snap, hi, fun key wait hget => ?_⟩
        exact ⟨_, by simp [hget], swept_cases hinv hi hget now skipped⟩
      · cases h

/-! ## A child that had continued before -/

namespace SweepTrace

def spec : JobSpec :=
  ⟨"import", Payload.injectTraceContext none none, none, none, none, none, none, none, .replace⟩

def call : WaitCall := ⟨"a", "import", [some .null], none, WaitCall.one_input⟩

/-- The child of a wait is deleted, and a sweep takes its snapshot. -/
def deleted : List SweepEvent :=
  [.base (.addJob 0 spec), .base (.claim 0 "p" 1 false), .base (.waitBegin 0 0 call),
    .base (.waitLookup 1),
    .base (.waitCommit 1 [.add ⟨none, none, none, 25, none, none, none, .replace⟩]),
    .base (.completeJob "q" 2), .snapshot 0]

/-- A job continues; then a parent's idempotency key joins its old row. -/
def continued : List SweepEvent :=
  [.base (.addJob 0 spec), .base (.claim 0 "p" 1 false), .base (.continueBegin 0 0 none none),
    .base (.continueCommit 1), .base (.completeJob "p" 1), .base (.addJob 0 spec),
    .base (.claim 0 "q" 3 false), .base (.waitBegin 0 1 call), .base (.waitLookup 3),
    .base (.waitCommit 3 [.duplicate 1]), .snapshot 0, .sweep 0 0 fun _ => false]

/-- Lock times differ, and nobody reports. -/
def allowed (q : SweepState × Sweeps) (e : SweepEvent) : Bool :=
  match q.1.baseEvent e with
  | none => true
  | some e => lockTimesDiffer q.1.base e && match e with
    | .settle _ _ _ _ => false
    | _ => true

end SweepTrace

private theorem sweepCond_of_allowed {q : SweepState × Sweeps} {e : SweepEvent}
    (h : SweepTrace.allowed q e = true) : SweepCond q e := by
  intro e' he
  simp only [SweepTrace.allowed, he, Bool.and_eq_true] at h
  refine ⟨h.1, ?_⟩
  cases e' with
  | settle => cases h.2
  | _ => trivial

theorem sweep_fails_lost_only_deleted : ∃ (q : SweepState × Sweeps) (snap : Db) (wait wait' : Wait),
    FailsLost q.1 q.2 snap 0 ((1, "a"), 0) wait wait' := by
  have hinit : sweeps.Init (⟨State.initial, ∅⟩, .start) := ⟨rfl, rfl⟩
  obtain ⟨q, hreach, hq⟩ := TransitionSystem.exists_reachableWith_of_runWith SweepTrace.deleted
    (fun q => (q.1.sweep 0 0 fun _ => false).isSome &&
      (q.1.base.db.waits.get? ((1, "a"), 0)).any fun wait => wait.pending &&
        (q.1.seen.get? 0).any fun snap => snap.seesLost ((1, "a"), 0) wait)
    (fun q e (hc : SweepTrace.allowed q e = true) => sweepCond_of_allowed hc) hinit (by decide)
  simp only [Bool.and_eq_true, Option.any_eq_true] at hq
  obtain ⟨hswept, wait, hget, hpending, snap, hi, hsees⟩ := hq
  obtain ⟨p', hp'⟩ := Option.isSome_iff_exists.mp hswept
  obtain ⟨snap', hi', hwaits⟩ := (sweep_fails_lost_only hreach).2 0 0 _ p' hp'
  obtain ⟨wait', -, -, hfails⟩ := hwaits _ wait hget
  obtain rfl : snap' = snap := Option.some.inj (hi'.symm.trans hi)
  exact ⟨q, snap', wait, wait', hfails hpending rfl hsees⟩

/-- A sweep fails the wait for a job that has continued, while its continuation can run. -/
theorem sweep_fails_continued : ∃ q job, sweeps.ReachableWith SweepCond q ∧ q.2.lost 1 = true ∧
    q.2.chain.continued 1 = true ∧ q.2.chain.root 2 = q.2.chain.root 1 ∧
    q.1.base.db.jobs.get? 2 = some job ∧ job.available = true := by
  have hinit : sweeps.Init (⟨State.initial, ∅⟩, .start) := ⟨rfl, rfl⟩
  obtain ⟨q, hreach, hq⟩ := TransitionSystem.exists_reachableWith_of_runWith SweepTrace.continued
    (fun q => q.2.lost 1 && q.2.chain.continued 1 && q.2.chain.root 2 = q.2.chain.root 1 &&
      (q.1.base.db.jobs.get? 2).any Job.available)
    (fun q e (hc : SweepTrace.allowed q e = true) => sweepCond_of_allowed hc) hinit (by decide)
  simp only [Bool.and_eq_true, Option.any_eq_true, decide_eq_true_eq] at hq
  obtain ⟨⟨⟨hlost, hcontinued⟩, hroot⟩, job, hrow, hav⟩ := hq
  exact ⟨q, job, hreach, hlost, hcontinued, hroot, hrow, hav⟩

end BetterGraphileWorker
