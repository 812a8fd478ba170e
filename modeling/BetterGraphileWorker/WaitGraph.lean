-- SUMMARY: The waits-for relation of live jobs: only a wait that joins its own caller, or a job waiting for it, closes a cycle.
import BetterGraphileWorker.Library.Acyclic
import BetterGraphileWorker.System.Ended

/-!
# The wait graph

A job waits for the unreported children of its groups. Children are fresh rows unless an
idempotency key or a job key makes the enqueue return a job that exists, which may be the
caller or one of its ancestors; nothing in `enterWait` looks for that.
-/

namespace BetterGraphileWorker

open Relation

/-- The job runs, or can run again. -/
def Db.alive (db : Db) (id : JobId) : Bool := !Job.lost (db.jobs.get? id)

/-- `p` has a wait group with the unreported child `c`. -/
def Db.WaitsFor (db : Db) (p c : JobId) : Prop :=
  db.alive p = true ∧ db.alive c = true ∧ ∃ waitId idx wait,
    db.waits.get? ((p, waitId), idx) = some wait ∧ wait.pending = true ∧ wait.child = c

/-- A new wait joins a job that exists and is its caller, or waits for it. -/
def JoinsWaiter (s : State) (e : Event) : Prop :=
  ∃ id prepared k now call suspended, e = .waitCommit id prepared ∧
    s.txs.get? id = some ⟨k, now, .waitLooked call suspended none⟩ ∧
    ∃ child ∈ (createWait now (id, call.waitId) call prepared s.db).2,
      child < s.db.nextId ∧ ReflTransGen s.db.WaitsFor child id

/-- Wait rows name ids that were handed out. -/
def WaitsBelow (db : Db) : Prop := ∀ key wait, db.waits.get? key = some wait →
  key.1.1 < db.nextId ∧ wait.child < db.nextId

variable {s s' : State} {e : Event} {r : Reply}

private theorem alive_before (hwf : Wf s) (h : s.exec e = some (s', r)) {id : JobId}
    (hid : id < s.db.nextId) (halive : s'.db.alive id = true) : s.db.alive id = true := by
  cases hlost : Job.lost (s.db.jobs.get? id) with
  | false => simp [Db.alive, hlost]
  | true => simp [Db.alive, lost_persists hwf h hid hlost] at halive

theorem waitsBelow_exec (hwf : Wf s) (hbelow : WaitsBelow s.db) (h : s.exec e = some (s', r)) :
    WaitsBelow s'.db := by
  intro key wait' hget'
  have hle := (State.db_ok hwf h).1
  have hchange := State.wait_change hwf h key
  rw [hget'] at hchange
  generalize hget : s.db.waits.get? key = before at hchange
  cases hchange with
  | same =>
    obtain ⟨hp, hc⟩ := hbelow key wait' hget
    exact ⟨hp.trans_le hle, hc.trans_le hle⟩
  | reported wait he =>
    obtain ⟨hp, hc⟩ := hbelow key wait hget
    rw [Wait.reported_child]
    exact ⟨hp.trans_le hle, hc.trans_le hle⟩
  | created _ he htx hr hkey hmem hchild =>
    obtain ⟨-, job, -, -, hrow, -⟩ := hwf.tx _ _ htx
    refine ⟨?_, hchild⟩
    rw [hkey]
    exact (hwf.idsBelow _ _ hrow).trans_le hle
  | moved wait he htx hr hchild hpending =>
    subst he
    obtain ⟨hp, -⟩ := hbelow key wait hget
    obtain ⟨k, now, job, runAt, traceparent, progress, a, htx', ha, -, ⟨-, hrefused⟩ |
      ⟨db, next, hok, -, hs'⟩⟩ := State.continueCommit_cases h
    · simp [hr] at hrefused
    · obtain ⟨-, hnext, -⟩ := State.continue_tables hwf htx' ha hok
      exact ⟨hp.trans_le hle, by simp [hs', hnext]⟩

/-- A new edge ends in a row that the step inserted, or joins a job that exists. -/
private theorem edge_cases (hwf : Wf s) (hbelow : WaitsBelow s.db) (h : s.exec e = some (s', r))
    {p c : JobId} (hedge : s'.db.WaitsFor p c) :
    s.db.WaitsFor p c ∨ s.db.nextId ≤ c ∨
      ∃ prepared k now call suspended, e = .waitCommit p prepared ∧
        s.txs.get? p = some ⟨k, now, .waitLooked call suspended none⟩ ∧
        c ∈ (createWait now (p, call.waitId) call prepared s.db).2 := by
  obtain ⟨hp, hc, waitId, idx, wait', hget', hpending', rfl⟩ := hedge
  have hchange := State.wait_change hwf h ((p, waitId), idx)
  rw [hget'] at hchange
  generalize hget : s.db.waits.get? ((p, waitId), idx) = before at hchange
  have hold : ∀ wait, before = some wait → wait.pending = true → wait.child = wait'.child →
      s.db.WaitsFor p wait'.child := by
    intro wait hbefore hpending hchild
    obtain ⟨hpId, hcId⟩ := hbelow _ wait (hget.trans hbefore)
    rw [hchild] at hcId
    exact ⟨alive_before hwf h hpId hp, alive_before hwf h hcId hc, waitId, idx, wait,
      hget.trans hbefore, hpending, hchild⟩
  cases hchange with
  | same => exact .inl (hold wait' rfl hpending' rfl)
  | reported wait he =>
    exact .inl (hold wait rfl (Wait.pending_of_reported hpending') Wait.reported_child.symm)
  | created _ he htx hr hkey hmem =>
    obtain ⟨rfl, -⟩ := Prod.mk.inj hkey
    exact .inr (.inr ⟨_, _, _, _, _, he, htx, hmem⟩)
  | moved => exact .inr (.inl le_rfl)

/-- A row that the step inserted waits for nobody yet. -/
private theorem fresh_sink (hwf : Wf s) (hbelow : WaitsBelow s.db) (h : s.exec e = some (s', r))
    {p : JobId} (hp : s.db.nextId ≤ p) (c : JobId) : ¬ s'.db.WaitsFor p c := by
  rintro ⟨-, -, waitId, idx, wait', hget', -⟩
  have hchange := State.wait_change hwf h ((p, waitId), idx)
  rw [hget'] at hchange
  generalize hget : s.db.waits.get? ((p, waitId), idx) = before at hchange
  have hold : ∀ wait, before ≠ some wait := by
    intro wait hbefore
    exact absurd (hbelow _ wait (hget.trans hbefore)).1 (not_lt.mpr hp)
  cases hchange with
  | same => exact hold wait' rfl
  | reported wait => exact hold wait rfl
  | moved wait => exact hold wait rfl
  | created _ he htx hr hkey =>
    obtain ⟨rfl, -⟩ := Prod.mk.inj hkey
    obtain ⟨-, job, -, -, hrow, -⟩ := hwf.tx _ _ htx
    exact absurd (hwf.idsBelow _ _ hrow) (not_lt.mpr hp)

theorem acyclic_exec (hwf : Wf s) (hbelow : WaitsBelow s.db) (hacyclic : Acyclic s.db.WaitsFor)
    (hcond : ¬ JoinsWaiter s e) (h : s.exec e = some (s', r)) : Acyclic s'.db.WaitsFor := by
  -- Only a commit of a wait adds edges to jobs that exist, and all of them leave its caller.
  have hedges : ∃ own, ∀ p c, s'.db.WaitsFor p c →
      s.db.WaitsFor p c ∨ p = own ∧ ¬ ReflTransGen s.db.WaitsFor c own ∨
        ∀ x, ¬ s'.db.WaitsFor c x := by
    have hown : ∃ own, ∀ id prepared, e = .waitCommit id prepared → id = own := by
      cases e with
      | waitCommit id prepared =>
        refine ⟨id, ?_⟩
        rintro id _ ⟨⟩
        rfl
      | _ => exact ⟨0, by rintro _ _ ⟨⟩⟩
    obtain ⟨own, hown⟩ := hown
    refine ⟨own, fun p c hedge => ?_⟩
    rcases edge_cases hwf hbelow h hedge with
      hold | hfresh | ⟨prepared, k, now, call, suspended, heq, htx, hmem⟩
    · exact .inl hold
    · exact .inr (.inr (fresh_sink hwf hbelow h hfresh))
    · rcases lt_or_ge c s.db.nextId with hlt | hge
      · obtain rfl := hown p prepared heq
        refine .inr (.inl ⟨rfl, fun hpath => ?_⟩)
        exact hcond ⟨p, prepared, k, now, call, suspended, heq, htx, c, hmem, hlt, hpath⟩
      · exact .inr (.inr (fresh_sink hwf hbelow h hge))
  obtain ⟨own, hedges⟩ := hedges
  exact hacyclic.of_new_edges own hedges

/--
While no wait joins its own caller or a job that waits for it, no job waits for itself, and
whoever waits is waiting, in the end, for a live job that waits for nobody.
-/
theorem no_job_waits_on_itself (hreach : system.ReachableWith (fun s e => ¬ JoinsWaiter s e) s) :
    Acyclic s.db.WaitsFor ∧ ∀ p c, s.db.WaitsFor p c →
      ∃ d, ReflTransGen s.db.WaitsFor c d ∧ s.db.alive d = true ∧ ∀ x, ¬ s.db.WaitsFor d x := by
  have hinv : Wf s ∧ WaitsBelow s.db ∧ Acyclic s.db.WaitsFor := by
    refine hreach.invariant (I := fun s => Wf s ∧ WaitsBelow s.db ∧ Acyclic s.db.WaitsFor) ?_ ?_
    · intro s hs
      obtain rfl : s = State.initial := hs
      refine ⟨State.wf_initial, fun _ _ hget => (by cases hget), fun a ha => ?_⟩
      obtain ⟨b, ⟨halive, -⟩, -⟩ := TransGen.head'_iff.mp ha
      cases halive
    · intro s e s' _ ⟨hwf, hbelow, hacyclic⟩ hcond hstep
      obtain ⟨r, hexec⟩ := system_step_iff.mp hstep
      exact ⟨State.wf_exec hwf hexec, waitsBelow_exec hwf hbelow hexec,
        acyclic_exec hwf hbelow hacyclic hcond hexec⟩
  obtain ⟨-, hbelow, hacyclic⟩ := hinv
  refine ⟨hacyclic, fun p c hedge => ?_⟩
  have hfin : {c | ∃ p, s.db.WaitsFor p c}.Finite := by
    apply (Set.finite_lt_nat s.db.nextId).subset
    rintro c ⟨p, -, -, waitId, idx, wait, hget, -, rfl⟩
    exact (hbelow _ wait hget).2
  obtain ⟨d, hpath, hsink⟩ := hacyclic.exists_sink hfin c
  refine ⟨d, hpath, ?_, hsink⟩
  cases hpath.cases_tail with
  | inl heq => exact heq ▸ hedge.2.1
  | inr hlast => exact hlast.choose_spec.2.2.1

/-! ## A parent that joins itself -/

namespace WaitGraphTrace

def start : List Event :=
  [.addJob 0 ⟨"crawl", Payload.injectTraceContext none none, none, none, none, none, none, none,
      .replace⟩,
    .claim 0 "p" 1 false,
    .waitBegin 0 0 ⟨"a", "crawl", [some .null], none, WaitCall.one_input⟩, .waitLookup 1]

/-- The job waits for a fresh child. -/
def fresh : List Event :=
  start ++ [.waitCommit 1 [.add ⟨none, none, none, 25, none, none, none, .replace⟩]]

/-- The idempotency key of the child was used for the job itself. -/
def joined : List Event := start ++ [.waitCommit 1 [.duplicate 1], .failJob 0 "p" 1 "waiting"]

/-- The step's wait joins some job that exists. -/
def joins (s : State) : Event → Bool
  | .waitCommit id prepared =>
    match s.txs.get? id with
    | some ⟨_, now, .waitLooked call _ none⟩ =>
      (createWait now (id, call.waitId) call prepared s.db).2.any (· < s.db.nextId)
    | _ => false
  | _ => false

/-- Job `p` has the unreported child `c` in the wait `a`. -/
def waits (db : Db) (p c : JobId) : Bool :=
  db.alive p && db.alive c &&
    (db.waits.get? ((p, "a"), 0)).any fun wait => wait.pending && wait.child = c

end WaitGraphTrace

private theorem not_joinsWaiter (h : (!WaitGraphTrace.joins s e) = true) : ¬ JoinsWaiter s e := by
  rintro ⟨id, prepared, k, now, call, suspended, rfl, htx, child, hmem, hlt, -⟩
  have hany : (createWait now (id, call.waitId) call prepared s.db).2.any (· < s.db.nextId) = true :=
    List.any_eq_true.mpr ⟨child, hmem, decide_eq_true hlt⟩
  simp [WaitGraphTrace.joins, htx, hany] at h

private theorem waitsFor_of_waits {db : Db} {p c : JobId} (h : WaitGraphTrace.waits db p c = true) :
    db.WaitsFor p c := by
  simp only [WaitGraphTrace.waits, Bool.and_eq_true, Option.any_eq_true, decide_eq_true_eq] at h
  obtain ⟨⟨hp, hc⟩, wait, hget, hpending, hchild⟩ := h
  exact ⟨hp, hc, "a", 0, wait, hget, hpending, hchild⟩

theorem no_job_waits_on_itself_fresh : ∃ s : State, s.db.WaitsFor 1 2 ∧ Acyclic s.db.WaitsFor := by
  obtain ⟨s, hreach, hs⟩ := system.exists_reachableWith_of_runWith WaitGraphTrace.fresh
    (fun s => WaitGraphTrace.waits s.db 1 2)
    (fun s e (hc : (!WaitGraphTrace.joins s e) = true) => not_joinsWaiter hc) rfl (by decide)
  exact ⟨s, waitsFor_of_waits hs, (no_job_waits_on_itself hreach).1⟩

/-- A job without a deadline sleeps on its own id. -/
theorem job_waits_on_itself : ∃ s job, system.Reachable s ∧ s.db.jobs.get? 1 = some job ∧
    job.lock = none ∧ noDeadline ≤ job.runAt ∧ s.db.WaitsFor 1 1 ∧ ¬ Acyclic s.db.WaitsFor := by
  obtain ⟨s, hreach, hs⟩ := system.exists_reachable_of_run WaitGraphTrace.joined
    (fun s => WaitGraphTrace.waits s.db 1 1 && (s.db.jobs.get? 1).any fun job =>
      job.lock.isNone && noDeadline ≤ job.runAt) rfl (by decide)
  simp only [Bool.and_eq_true, Option.any_eq_true, Option.isNone_iff_eq_none,
    decide_eq_true_eq] at hs
  obtain ⟨hwaits, job, hrow, hlock, hrun⟩ := hs
  have hself := waitsFor_of_waits hwaits
  exact ⟨s, job, hreach, hrow, hlock, hrun, hself, fun hacyclic => hacyclic 1 (.single hself)⟩

end BetterGraphileWorker
