-- SUMMARY: When the outcome of a run, and getJob after it, show the task, creation time and attempts the job had while it ran.
import BetterGraphileWorker.System.Outcomes

/-!
# Outcome fidelity

The outcome of a run is copied from its row by the statement that ends the run, and the
first outcome of a job keeps its task and creation time. Until then other transactions may
write the row; and a run that continues retires its row before it copies it.
-/

namespace BetterGraphileWorker

/-! ## Runs and their rows -/

/-- The row of each run as its claim left it. -/
abbrev Claims := ℕ → Option Job

def Claims.note (s : State) (e : Event) (s' : State) (claims : Claims) : Claims :=
  match e with
  | .claim _ _ id _ => Function.update claims s.nextAttempt (s'.db.jobs.get? id)
  | _ => claims

/-- The system, and the row that each run claimed. -/
def claimed : TransitionSystem (State × Claims) Event :=
  system.observe (fun _ => none) Claims.note

/-- The step writes the outcome of the run numbered `k`. -/
inductive Records (s : State) (r : Reply) (k : ℕ) : Event → Prop where
  | settled {now : Time} {settle : Settle} {visible : WaitKey → Bool} {outcome : SettledOutcome}
      (houtcome : settle.outcome = some outcome) (hr : r = .done) :
      Records s r k (.settle now k settle visible)
  | continued {id next : JobId} {now : Time} {job : Job} {runAt : Option Time}
      {traceparent : Option String} {progress : Option Json} {a : Attempt}
      (htx : s.txs.get? id = some ⟨k, now, .continuing job runAt traceparent progress⟩)
      (ha : s.attempts.get? k = some a) (houtcome : a.jobOutcomes = true)
      (hr : r = .continued next) : Records s r k (.continueCommit id)

/-- What `getJob` reports of a job once Graphile's failure update has run, if there is one. -/
def Reports (db : Db) (id : JobId) (attempts maxAttempts : ℤ) : Prop :=
  ∀ now pool error now' updatedAt, ∃ fields standing,
    queryJob now' updatedAt id (failJob now pool id error db) (failJob now pool id error db) =
      .ok (.found fields standing) ∧ fields.attempts = attempts ∧ fields.maxAttempts = maxAttempts

/-- The outcome of a run, and `getJob` after it, show the row that the run claimed. -/
structure Faithful (db : Db) (id : JobId) (row : Job) : Prop where
  recorded : ∃ outcome, db.outcomes.get? id = some outcome ∧ outcome.identifier = row.identifier ∧
    outcome.createdAt = row.createdAt ∧ outcome.attempts = row.attempts ∧
    outcome.maxAttempts = row.maxAttempts
  reported : Reports db id row.attempts row.maxAttempts

/-! ## The condition -/

/-- The task of the job's outcome: that of its first outcome, or of its row. -/
def Db.outcomeTask (db : Db) (id : JobId) (job : Job) : String :=
  ((db.outcomes.get? id).map (·.identifier)).getD job.identifier

/-- What `attempts` and `max_attempts` of a row become when its run continues. -/
def Job.retiredAttempts (job : Job) : ℤ := if job.key.isSome then job.maxAttempts else job.attempts

/--
Nothing else has written the columns since the claim, and a run that continues or that
exhausts its row had claimed the last attempt.
-/
def EndsAsClaimed (s : State) (a : Attempt) (row : Job) (e : Event) : Prop :=
  ∃ job, s.db.jobs.get? a.job.id = some job ∧ s.db.outcomeTask a.job.id job = row.identifier ∧
    match e with
    | .settle _ _ settle _ => job.attempts = row.attempts ∧ job.maxAttempts = row.maxAttempts ∧
        (settle.row = .exhaust → row.attempts = row.maxAttempts)
    | _ => job.retiredAttempts = row.attempts ∧ row.attempts = row.maxAttempts

/-! ## What is never overwritten -/

structure Claims.Inv (p : State × Claims) : Prop where
  wf : Wf p.1
  positive : 1 ≤ p.1.db.nextId ∧ ∀ id job, p.1.db.jobs.get? id = some job → 1 ≤ id
  below : ∀ id outcome, p.1.db.outcomes.get? id = some outcome → id < p.1.db.nextId
  created : ∀ id outcome job, p.1.db.outcomes.get? id = some outcome →
    p.1.db.jobs.get? id = some job → outcome.createdAt = job.createdAt
  claims : ∀ k a row job, p.1.attempts.get? k = some a → p.2 k = some row →
    p.1.db.jobs.get? a.job.id = some job → row.createdAt = job.createdAt

theorem get?_recordOutcome {now : Time} {id id' : JobId} {job : Job} {outcome : SettledOutcome}
    {db : Db} : (recordOutcome now id job outcome db).outcomes.get? id' =
      if id' = id then some {
        identifier := db.outcomeTask id job
        state := outcome.state
        continuedTo := match outcome with | .continued next => some next | _ => none
        attempts := job.attempts
        maxAttempts := job.maxAttempts
        lastError := match outcome with | .failed error => some error | _ => none
        createdAt := ((db.outcomes.get? id).map (·.createdAt)).getD job.createdAt
        finishedAt := now } else db.outcomes.get? id' := by
  unfold recordOutcome
  rw [Table.get?_insert]
  rfl

@[simp] theorem Job.retired_identifier {job : Job} : job.retired.identifier = job.identifier := by
  unfold Job.retired; split <;> rfl

@[simp] theorem Job.retired_attempts {job : Job} : job.retired.attempts = job.retiredAttempts := by
  unfold Job.retired Job.retiredAttempts; split <;> rfl

@[simp] theorem Job.retired_maxAttempts {job : Job} : job.retired.maxAttempts = job.retiredAttempts := by
  unfold Job.retired Job.retiredAttempts; split <;> rfl

namespace Claims

variable {s s' : State} {e : Event} {r : Reply} {c : Claims}

/-- A new outcome row is the copy of an owned row, under the creation time of any earlier one. -/
private theorem outcomes_exec (hinv : Inv (s, c)) (h : s.exec e = some (s', r)) {id : JobId}
    {outcome : Outcome} (hout : s'.db.outcomes.get? id = some outcome) :
    (∃ old, s.db.outcomes.get? id = some old ∧ outcome.createdAt = old.createdAt) ∨
      ∃ job, s.db.jobs.get? id = some job ∧ outcome.createdAt = job.createdAt := by
  have hrecord : ∀ {now id' job settled}, s'.db.outcomes = (recordOutcome now id' job settled s.db).outcomes →
      (∃ row, s.db.jobs.get? id' = some row ∧ row.createdAt = job.createdAt) →
      (∃ old, s.db.outcomes.get? id = some old ∧ outcome.createdAt = old.createdAt) ∨
        ∃ job, s.db.jobs.get? id = some job ∧ outcome.createdAt = job.createdAt := by
    intro now id' job settled heq hrow
    obtain ⟨row, hrow, hcreated⟩ := hrow
    rw [heq, get?_recordOutcome] at hout
    split at hout
    · rename_i hid
      subst hid
      cases hold : s.db.outcomes.get? id with
      | none =>
        refine .inr ⟨row, hrow, ?_⟩
        rw [← Option.some.inj hout, hold, hcreated]
        rfl
      | some old =>
        refine .inl ⟨old, rfl, ?_⟩
        rw [← Option.some.inj hout, hold]
        rfl
    · exact .inl ⟨outcome, hout, rfl⟩
  cases State.outcome_change hinv.wf h with
  | kept hk => exact .inl ⟨outcome, hk.outcomes ▸ hout, rfl⟩
  | completed he hrow hrows houtcomes => exact .inl ⟨outcome, houtcomes ▸ hout, rfl⟩
  | @settled now k settle visible a job he hr ha hown hrow hrows houtcomes =>
    cases hsettle : settle.outcome with
    | none =>
      simp only [hsettle] at houtcomes
      exact .inl ⟨outcome, houtcomes ▸ hout, rfl⟩
    | some settled =>
      simp only [hsettle] at houtcomes
      exact hrecord houtcomes ⟨job, (owned_eq_some_iff.mp hown).1, rfl⟩
  | @continued id' k now job runAt traceparent progress a he hr htx ha hid hbefore ho hrow hrows
      houtcomes =>
    exact hrecord houtcomes ⟨job, hbefore, by simp⟩

private theorem claims_exec (hinv : Inv (s, c)) (h : s.exec e = some (s', r)) {k : ℕ} {a' : Attempt}
    {row job' : Job} (ha' : s'.attempts.get? k = some a') (hrow : Claims.note s e s' c k = some row)
    (hjob' : s'.db.jobs.get? a'.job.id = some job') : row.createdAt = job'.createdAt := by
  rcases State.attempt_origin h ha' with ⟨a, ha, hjob, -⟩ |
    ⟨now, pool, id, jobOutcomes, job, rfl, rfl, -, -, hjob⟩
  · -- The run was there before, and so was its row.
    obtain ⟨hk, hbelow⟩ := hinv.wf.attemptBelow k a ha
    have hold : c k = some row := by
      unfold Claims.note at hrow
      split at hrow
      · rwa [Function.update_of_ne (ne_of_lt hk)] at hrow
      · exact hrow
    rw [hjob] at hjob'
    rcases State.row_created hinv.wf h hjob' with ⟨job, hbefore, hcreated⟩ | ⟨-, hnew⟩
    · rw [hcreated]
      exact hinv.claims k a row job ha hold hbefore
    · exact absurd (lt_of_lt_of_le hbelow hnew) (lt_irrefl _)
  · simp only [Claims.note, Function.update_self] at hrow
    rw [hjob] at hjob'
    obtain rfl : row = job' := Option.some.inj (hrow.symm.trans hjob')
    rfl

theorem inv_exec (hinv : Inv (s, c)) (h : s.exec e = some (s', r)) :
    Inv (s', Claims.note s e s' c) where
  wf := State.wf_exec hinv.wf h
  positive := by
    have hle := (State.db_ok hinv.wf h).1
    refine ⟨hinv.positive.1.trans hle, fun id job' hrow' => ?_⟩
    rcases State.row_created hinv.wf h hrow' with ⟨job, hrow, -⟩ | ⟨-, hnew⟩
    · exact hinv.positive.2 id job hrow
    · exact hinv.positive.1.trans hnew
  below id outcome hout := by
    have hle := (State.db_ok hinv.wf h).1
    rcases outcomes_exec hinv h hout with ⟨old, hold, -⟩ | ⟨job, hrow, -⟩
    · exact lt_of_lt_of_le (hinv.below id old hold) hle
    · exact lt_of_lt_of_le (hinv.wf.idsBelow id job hrow) hle
  created id outcome job' hout hrow' := by
    rcases State.row_created hinv.wf h hrow' with ⟨job, hrow, hcreated⟩ | ⟨hnone, hnew⟩
    · rcases outcomes_exec hinv h hout with ⟨old, hold, heq⟩ | ⟨row, hrow₀, heq⟩
      · rw [heq, hcreated, hinv.created id old job hold hrow]
      · obtain rfl : row = job := Option.some.inj (hrow₀.symm.trans hrow)
        rw [heq, hcreated]
    · rcases outcomes_exec hinv h hout with ⟨old, hold, -⟩ | ⟨row, hrow₀, -⟩
      · exact absurd (lt_of_lt_of_le (hinv.below id old hold) hnew) (lt_irrefl _)
      · rw [hnone] at hrow₀
        cases hrow₀
  claims _ _ _ _ ha' hrow hjob' := claims_exec hinv h ha' hrow hjob'

theorem inv_reachable {p : State × Claims} (h : claimed.Reachable p) : Inv p := by
  refine h.invariant ?_ ?_
  · rintro ⟨s, c⟩ ⟨hs, hc⟩
    obtain rfl : s = State.initial := hs
    exact {
      wf := State.wf_initial
      positive := ⟨le_refl _, fun _ _ hrow => by cases hrow⟩
      below := fun _ _ hout => by cases hout
      created := fun _ _ _ hout => by cases hout
      claims := fun _ _ _ _ ha => by cases ha }
  · rintro ⟨s, c⟩ e ⟨s', c'⟩ - hinv - hstep
    obtain ⟨hstep, hc'⟩ := TransitionSystem.observe_step_iff.mp hstep
    obtain ⟨r, hexec⟩ := system_step_iff.mp hstep
    simp only at hc' hexec
    subst hc'
    exact inv_exec hinv hexec

end Claims

/-! ## What getJob reports -/

section
variable {db : Db} {id : JobId} {attempts maxAttempts : ℤ}

/-- A job that keeps its row is reported from there; the failure update leaves its attempts. -/
theorem reports_live {job : Job} (hid : id ≠ 0) (hrow : db.jobs.get? id = some job) :
    Reports db id attempts maxAttempts ↔ job.attempts = attempts ∧ job.maxAttempts = maxAttempts := by
  have hfailed : ∀ now pool error, ∃ job', (failJob now pool id error db).jobs.get? id = some job' ∧
      job'.attempts = job.attempts ∧ job'.maxAttempts = job.maxAttempts := by
    intro now pool error
    rw [get?_failJob, hrow]
    by_cases hpool : job.lockedByPool pool = true
    · exact ⟨job.fail now error, by simp [hpool], rfl, rfl⟩
    · exact ⟨job, by simp [hpool], rfl, rfl⟩
  have hquery : ∀ now pool error now' updatedAt, ∃ fields standing,
      queryJob now' updatedAt id (failJob now pool id error db) (failJob now pool id error db) =
        .ok (.found fields standing) ∧ fields.attempts = job.attempts ∧
        fields.maxAttempts = job.maxAttempts := by
    intro now pool error now' updatedAt
    obtain ⟨job', hrow', ha, hm⟩ := hfailed now pool error
    obtain ⟨standing, hq⟩ := queryJob_fields now' updatedAt
      (failJob now pool id error db) hid hrow'
    exact ⟨_, standing, hq, ha, hm⟩
  constructor
  · intro h
    obtain ⟨fields, standing, hq, ha, hm⟩ := h 0 "" "" 0 0
    obtain ⟨fields', standing', hq', ha', hm'⟩ := hquery 0 "" "" 0 0
    rw [hq] at hq'
    simp only [Except.ok.injEq, JobState.found.injEq] at hq'
    obtain ⟨rfl, -⟩ := hq'
    exact ⟨ha'.symm.trans ha, hm'.symm.trans hm⟩
  · rintro ⟨rfl, rfl⟩ now pool error now' updatedAt
    exact hquery now pool error now' updatedAt

/-- A job without a row is reported from its outcome. -/
theorem reports_gone (attempts maxAttempts : ℤ) {outcome : Outcome} (hid : id ≠ 0)
    (hrow : db.jobs.get? id = none) (hout : db.outcomes.get? id = some outcome) :
    Reports db id attempts maxAttempts ↔
      outcome.attempts = attempts ∧ outcome.maxAttempts = maxAttempts := by
  have hquery : ∀ now pool error now' updatedAt,
      queryJob now' updatedAt id (failJob now pool id error db) (failJob now pool id error db) =
        .ok (outcomeState id outcome) := by
    intro now pool error now' updatedAt
    have hsame : failJob now pool id error db = db := by simp [failJob, hrow]
    rw [hsame, queryJob_gone hid hrow, hout]
  constructor
  · intro h
    obtain ⟨fields, standing, hq, ha, hm⟩ := h 0 "" "" 0 0
    rw [hquery] at hq
    simp only [Except.ok.injEq, outcomeState, JobState.found.injEq] at hq
    obtain ⟨rfl, -⟩ := hq
    exact ⟨ha, hm⟩
  · rintro ⟨rfl, rfl⟩ now pool error now' updatedAt
    exact ⟨_, _, hquery now pool error now' updatedAt, rfl, rfl⟩

end

/-! ## Fidelity -/

/--
The outcome that a run writes shows the row the run claimed, and so does `getJob` after the
run, exactly when the run ends as claimed.
-/
theorem outcome_faithful_iff {p : State × Claims} (hreach : claimed.Reachable p) {e : Event}
    {s' : State} {r : Reply} (h : p.1.exec e = some (s', r)) {k : ℕ} {a : Attempt} {row : Job}
    (ha : p.1.attempts.get? k = some a) (hrow : p.2 k = some row) (hrecords : Records p.1 r k e) :
    Faithful s'.db a.job.id row ↔ EndsAsClaimed p.1 a row e := by
  obtain ⟨s, c⟩ := p
  have hinv := Claims.inv_reachable hreach
  simp only at h ha hrow hrecords ⊢
  -- The creation time is never wrong.
  have hcreated : ∀ job, s.db.jobs.get? a.job.id = some job →
      ((s.db.outcomes.get? a.job.id).map (·.createdAt)).getD job.createdAt = row.createdAt := by
    intro job hjob
    rw [hinv.claims k a row job ha hrow hjob]
    cases hold : s.db.outcomes.get? a.job.id with
    | none => rfl
    | some old => exact hinv.created _ old job hold hjob
  have hpositive : ∀ job, s.db.jobs.get? a.job.id = some job → a.job.id ≠ 0 := by
    intro job hjob
    exact Nat.one_le_iff_ne_zero.mp (hinv.positive.2 _ job hjob)
  cases hrecords with
  | @settled now settle visible settled houtcome hr =>
    subst hr
    obtain ⟨a', job, ha', hown, hsettled, -, houtcomes⟩ := State.settled_outcome h
    obtain rfl : a' = a := Option.some.inj (ha'.symm.trans ha)
    have hjob := (owned_eq_some_iff.mp hown).1
    simp only [houtcome] at houtcomes
    have hout : ∃ outcome, s'.db.outcomes.get? a'.job.id = some outcome ∧
        outcome.identifier = s.db.outcomeTask a'.job.id job ∧ outcome.createdAt = row.createdAt ∧
        outcome.attempts = job.attempts ∧ outcome.maxAttempts = job.maxAttempts := by
      rw [houtcomes, get?_recordOutcome, if_pos rfl]
      exact ⟨_, rfl, rfl, hcreated job hjob, rfl, rfl⟩
    obtain ⟨outcome, hout, hname, htime, hattempts, hmax⟩ := hout
    have hreports : Reports s'.db a'.job.id row.attempts row.maxAttempts ↔
        job.attempts = row.attempts ∧
          (if settle.row = .exhaust then job.attempts else job.maxAttempts) = row.maxAttempts := by
      cases hafter : s'.db.jobs.get? a'.job.id with
      | none =>
        rw [hafter] at hsettled
        have hdelete : settle.row = .delete := hsettled
        rw [reports_gone _ _ (hpositive job hjob) hafter hout, hattempts, hmax]
        simp [hdelete]
      | some job' =>
        rw [hafter] at hsettled
        rw [reports_live (hpositive job hjob) hafter]
        obtain ⟨t, ⟨hexhaust, rfl⟩ | ⟨hkeep, rfl⟩⟩ := hsettled
        · simp [hexhaust, Job.exhaust, Job.setRunAt]
        · simp [hkeep, Job.setRunAt]
    constructor
    · rintro ⟨⟨outcome', hout', hname', -, hattempts', hmax'⟩, hreported⟩
      obtain rfl : outcome' = outcome := Option.some.inj (hout'.symm.trans hout)
      have hreported := hreports.mp hreported
      refine ⟨job, hjob, hname.symm.trans hname', hattempts.symm.trans hattempts',
        hmax.symm.trans hmax', fun hexhaust => ?_⟩
      rw [if_pos hexhaust] at hreported
      exact hreported.1.symm.trans hreported.2
    · rintro ⟨job', hjob', hname', ha', hm', hexhaust⟩
      obtain rfl : job' = job := Option.some.inj (hjob'.symm.trans hjob)
      refine ⟨⟨outcome, hout, hname.trans hname', htime, hattempts.trans ha', hmax.trans hm'⟩,
        hreports.mpr ⟨ha', ?_⟩⟩
      split
      · rename_i hrow'
        exact ha'.trans (hexhaust hrow')
      · exact hm'
  | @continued id next now job runAt traceparent progress a' htx ha' ho hr =>
    subst hr
    obtain rfl : a' = a := Option.some.inj (ha'.symm.trans ha)
    obtain ⟨-, rfl, hjob, hafter, -, houtcomes⟩ := State.continued_outcome hinv.wf h htx ha
    rw [ho] at hafter houtcomes
    have hname : s.db.outcomeTask a'.job.id job.retired = s.db.outcomeTask a'.job.id job := by
      simp [Db.outcomeTask]
    have hout : ∃ outcome, s'.db.outcomes.get? a'.job.id = some outcome ∧
        outcome.identifier = s.db.outcomeTask a'.job.id job ∧ outcome.createdAt = row.createdAt ∧
        outcome.attempts = job.retiredAttempts ∧ outcome.maxAttempts = job.retiredAttempts := by
      rw [houtcomes, if_pos rfl, get?_recordOutcome, if_pos rfl]
      exact ⟨_, rfl, hname, by simpa using hcreated job hjob, by simp, by simp⟩
    obtain ⟨outcome, hout, hname, htime, hattempts, hmax⟩ := hout
    have hreports := reports_gone row.attempts row.maxAttempts
      (hpositive job hjob) hafter hout
    constructor
    · rintro ⟨⟨outcome', hout', hname', -, hattempts', hmax'⟩, -⟩
      obtain rfl : outcome' = outcome := Option.some.inj (hout'.symm.trans hout)
      exact ⟨job, hjob, hname.symm.trans hname', hattempts.symm.trans hattempts',
        hattempts'.symm.trans (hattempts.trans (hmax.symm.trans hmax'))⟩
    · rintro ⟨job', hjob', hname', hlast, hsame⟩
      obtain rfl : job' = job := Option.some.inj (hjob'.symm.trans hjob)
      have hboth : outcome.attempts = row.attempts ∧ outcome.maxAttempts = row.maxAttempts :=
        ⟨hattempts.trans hlast, hmax.trans (hlast.trans hsame)⟩
      exact ⟨⟨outcome, hout, hname.trans hname', htime, hboth⟩, hreports.mpr hboth⟩

/-! ## A run that continues before its last attempt -/

namespace FidelityTrace

/-- A job that may run four times. -/
def spec : JobSpec :=
  ⟨"import", Payload.injectTraceContext none none, none, none, some 4, none, none, none, .replace⟩

def running : List Event := [.addJob 0 spec, .claim 0 "p" 1 true]

def continuing : List Event := running ++ [.continueBegin 0 0 none none]

def completion : Event := .settle 0 0 ⟨some .completed, none, .delete⟩ fun _ => true

/-- The run as it completes, with its row at the claim. -/
def completes (p : State × Claims) : Bool :=
  match p.1.exec completion, p.1.attempts.get? 0, p.2 0, p.1.db.jobs.get? 1 with
  | some (_, .done), some a, some row, some job => a.job.id = 1 && row.identifier = "import" &&
      p.1.db.outcomeTask 1 job = "import" && job.attempts = row.attempts &&
      job.maxAttempts = row.maxAttempts
  | _, _, _, _ => false

/-- The run as it continues, and the outcome it gets: out of attempts, after one of four. -/
def continues (p : State × Claims) : Bool :=
  match p.1.exec (.continueCommit 1), p.1.txs.get? 1, p.1.attempts.get? 0, p.2 0 with
  | some (s', .continued _), some ⟨0, _, .continuing _ _ _ _⟩, some a, some row =>
      a.job.id = 1 && a.jobOutcomes && row.maxAttempts = 4 &&
        (s'.db.outcomes.get? 1).any fun outcome => outcome.attempts = 1 && outcome.maxAttempts = 1
  | _, _, _, _ => false

end FidelityTrace

theorem outcome_faithful_completed : ∃ (p : State × Claims) (s' : State) (row : Job),
    p.1.exec FidelityTrace.completion = some (s', .done) ∧ p.2 0 = some row ∧
      Faithful s'.db 1 row := by
  have hinit : claimed.Init (State.initial, fun _ => none) := ⟨rfl, rfl⟩
  obtain ⟨p, hreach, hp⟩ := TransitionSystem.exists_reachable_of_run
    FidelityTrace.running FidelityTrace.completes hinit (by decide)
  unfold FidelityTrace.completes at hp
  split at hp
  · rename_i s' a row job hexec ha hrow hjob
    simp only [Bool.and_eq_true, decide_eq_true_eq] at hp
    obtain ⟨⟨⟨⟨hid, hname⟩, htask⟩, hattempts⟩, hmax⟩ := hp
    have hfaithful := (outcome_faithful_iff hreach hexec ha hrow (.settled rfl rfl)).mpr
      ⟨job, hid ▸ hjob, by rw [hid, htask, hname], hattempts, hmax, fun h => by cases h⟩
    exact ⟨p, s', row, hexec, hrow, hid ▸ hfaithful⟩
  · cases hp

/-- The outcome of the first of four attempts says that it was the only one. -/
theorem continued_unfaithful : ∃ (p : State × Claims) (s' : State) (r : Reply) (a : Attempt)
    (row : Job), claimed.Reachable p ∧ p.1.exec (.continueCommit 1) = some (s', r) ∧
      p.1.attempts.get? 0 = some a ∧ p.2 0 = some row ∧ Records p.1 r 0 (.continueCommit 1) ∧
      ¬ Faithful s'.db a.job.id row := by
  have hinit : claimed.Init (State.initial, fun _ => none) := ⟨rfl, rfl⟩
  obtain ⟨p, hreach, hp⟩ := TransitionSystem.exists_reachable_of_run
    FidelityTrace.continuing FidelityTrace.continues hinit (by decide)
  unfold FidelityTrace.continues at hp
  split at hp
  · rename_i s' next now job runAt traceparent progress a row hexec htx ha hrow
    simp only [Bool.and_eq_true, decide_eq_true_eq, Option.any_eq_true] at hp
    obtain ⟨⟨⟨hid, ho⟩, hmax⟩, outcome, hout, -, hone⟩ := hp
    refine ⟨p, s', _, a, row, hreach, hexec, ha, hrow, .continued htx ha ho rfl, ?_⟩
    rintro ⟨⟨outcome', hout', -, -, -, hmax'⟩, -⟩
    rw [hid, hout] at hout'
    obtain rfl := Option.some.inj hout'
    rw [hone, hmax] at hmax'
    exact absurd hmax' (by decide)
  · cases hp

end BetterGraphileWorker
