-- SUMMARY: With outcomes on, every enqueued job has a row or an outcome until its retention passes, and getJob finds it.
import BetterGraphileWorker.Fidelity
import BetterGraphileWorker.Worker.Notices

/-!
# Outcome completeness

The row of a job is deleted by the statement that writes its outcome, so that `getJob`, which
reads the row and later the outcome, finds one or the other. Beside the steps of workers there
are those of administrators, who retry and fail jobs, and of maintenance, which prunes outcomes.
-/

namespace BetterGraphileWorker.Completeness

/-! ## The system and its administration -/

inductive Step where
  | worker (e : Event)
  | reschedule (now : Time) (ids : List JobId) (columns : Reschedule)
  | permanentlyFail (now : Time) (ids : List JobId) (reason : Option String)
  | prune (now : Time) (skipped : JobId → Bool)

/-- `retryJobs` of client.ts. -/
def retryJobs (now : Time) (ids : List JobId) : Step := .reschedule now ids ⟨some now, none, some 0, none⟩

/-- No open transaction holds a row that the admin functions would write. -/
def rowsFree (s : State) (now : Time) (ids : List JobId) : Bool :=
  !s.txs.any fun id _ => decide (id ∈ ids) && (s.db.jobs.get? id).any (·.administrable now)

/-- An administrator's update of the rows. -/
def administered (s : State) (now : Time) (ids : List JobId) (update : Db → Db) : Option State :=
  if rowsFree s now ids ∧ now ≤ s.now then some { s with db := update s.db } else none

variable (retention : ℕ)

def exec (s : State) : Step → Option State
  | .worker e => (s.exec e).map (·.1)
  | .reschedule now ids columns => administered s now ids (rescheduleJobs now ids columns)
  | .permanentlyFail now ids reason => administered s now ids (permanentlyFailJobs now ids reason)
  | .prune now skipped =>
    if now ≤ s.now then some { s with db := pruneJobOutcomes now retention skipped s.db } else none

/-- Workers, administrators and maintenance, all with one retention. -/
def administeredSystem : TransitionSystem State Step where
  Init s := s = State.initial
  step := exec retention

/-! ## Histories -/

structure Past where
  /-- The jobs of which a run was told that it deleted them. -/
  ended : JobId → Bool
  /-- The last outcome of each job, pruned or not. -/
  last : JobId → Option Outcome

/-- The job of which the step tells a run that it deleted it. -/
def endedBy (s : State) : Step → Option JobId
  | .worker (.settle now k settle visible) =>
    match s.settle now k settle visible with
    | some (_, .done) =>
      if settle.row = .delete then (s.attempts.get? k).map (·.job.id) else none
    | _ => none
  | .worker (.continueCommit id) =>
    match s.continueCommit id with
    | some (_, .continued _) => some id
    | _ => none
  | _ => none

def Past.note (s : State) (e : Step) (s' : State) (past : Past) : Past where
  ended id := past.ended id || endedBy s e = some id
  last id := (s'.db.outcomes.get? id).or (past.last id)

def recorder : TransitionSystem (State × Past) Step :=
  (administeredSystem retention).observe ⟨fun _ => false, fun _ => none⟩ Past.note

/-- A statement that `executeTask` settles a job with while outcomes are on. -/
def settlesOutcome (settle : Settle) : Bool :=
  match settle.outcome with
  | some .completed => settle.row = .delete
  | some (.failed _) => true
  | _ => false

/--
Every worker records outcomes, and Graphile completes a job only once a run was told that it
deleted it: with `retain`, `executeTask` returns only then (`returns_ended`).
-/
def Records (p : State × Past) : Step → Bool
  | .worker (.claim _ _ _ jobOutcomes) => jobOutcomes
  | .worker (.settle _ _ settle _) => settlesOutcome settle
  | .worker (.completeJob _ id) => p.2.ended id
  | _ => true

/-- The runs in which every step meets `Records`. -/
abbrev Recorded (p : State × Past) : Prop :=
  (recorder retention).ReachableWith (fun p e => Records p e = true) p

/-- One such run leads from `p` to `p'`. -/
abbrev Later (p p' : State × Past) : Prop :=
  (recorder retention).Leads (fun p e => Records p e = true) p p'

/-- The last outcome of the job has been kept for its retention. -/
def Expired (p : State × Past) (id : JobId) : Prop :=
  ∃ outcome, p.2.last id = some outcome ∧ outcome.finishedAt < p.1.now - 1000 * (retention : ℤ)

/-! ## What executeTask sends -/

theorem settlesOutcome_settlement {o : ExecuteTaskOptions} (houtcomes : o.runtime.jobOutcomes = true) :
    (∀ output, settlesOutcome (o.settlement (.ok output) .delete) = true) ∧
      ∀ name message row, settlesOutcome (o.settlement (.failed name message) row) = true := by
  refine ⟨fun output => ?_, fun name message row => ?_⟩ <;>
    simp [settlesOutcome, ExecuteTaskOptions.settlement, houtcomes, settledOutcome]

/-- With outcomes on and `retain`, a task that returns was told that it deleted its job. -/
theorem returns_ended {o : ExecuteTaskOptions} {s : Locals} {notes : List Notices.Note}
    (houtcomes : o.runtime.jobOutcomes = true) (hretain : o.runtime.discard = false)
    (h : (executeTask o).Runs Notices.serves Locals.initial [] (.ok ()) s notes) :
    ∃ event before, notes = before ++ [.finished event] ∧
      ((∃ id, Notices.lastEnding before = some (.continued id)) ∨ ∃ output,
        Notices.lastSettled before = some (o.settlement (.ok output) .delete, .ok true)) := by
  obtain ⟨event, before, rfl, -, hagrees⟩ := Notices.account_of_runs h
  refine ⟨event, before, rfl, ?_⟩
  have hsettles : o.settles .delete = true := by simp [ExecuteTaskOptions.settles, houtcomes]
  obtain ⟨hsuccess, hwaiting⟩ | ⟨hdiscard, -⟩ := hagrees.returned rfl
  · cases hcontinued : event.continued with
    | true => exact .inl (hagrees.continued hcontinued).2
    | false => exact .inr ((hagrees.completed hsuccess hwaiting hcontinued).2.2 hsettles)
  · rw [hretain] at hdiscard
    cases hdiscard

/-! ## New rows -/

/-- Every row is still there, and every id taken from the sequence since then has a row. -/
structure Fills (db db' : Db) : Prop where
  rows : ∀ id, (db.jobs.get? id).isSome → (db'.jobs.get? id).isSome
  fresh : ∀ id, db.nextId ≤ id → id < db'.nextId → (db'.jobs.get? id).isSome

namespace Fills

variable {db db' db'' : Db}

theorem of_keeps (h : Keeps db db') (hnext : db'.nextId = db.nextId) : Fills db db' where
  rows id hrow := by
    obtain ⟨job, hget⟩ := Option.isSome_iff_exists.mp hrow
    obtain ⟨job', hget', -⟩ := h.rows id job hget
    rw [hget']
    rfl
  fresh id hle hlt := absurd (lt_of_le_of_lt hle (hnext ▸ hlt)) (lt_irrefl _)

theorem refl (db : Db) : Fills db db := of_keeps (.refl db) rfl

theorem trans (h : Fills db db') (h' : Fills db' db'') : Fills db db'' where
  rows id hrow := h'.rows id (h.rows id hrow)
  fresh id hle hlt := by
    by_cases hmid : id < db'.nextId
    · exact h'.rows id (h.fresh id hle hmid)
    · exact h'.fresh id (le_of_not_gt hmid) hlt

theorem addJob (now : Time) (spec : JobSpec) (hids : db.IdsBelow) : Fills db (addJob now spec db).1 where
  rows id hrow := by
    obtain ⟨job, hget⟩ := Option.isSome_iff_exists.mp hrow
    rw [addJob_kept now spec hids hget]
    rfl
  fresh id hle hlt := by
    rw [addJob_nextId] at hlt
    split at hlt
    · rename_i hnew
      obtain rfl : id = db.nextId := le_antisymm (Nat.le_of_lt_succ hlt) hle
      rw [get?_addJob]
      simp [hnew]
    · exact absurd (lt_of_le_of_lt hle hlt) (lt_irrefl _)

theorem enqueueChildren (now : Time) (queue : String) (children : List (Option Json × Prepared))
    (hids : db.IdsBelow) : Fills db (enqueueChildren now queue children db).1 := by
  induction children generalizing db with
  | nil => exact refl db
  | cons child children ih =>
    have hids' := (enqueued_enqueueChild now queue child.1 child.2 hids).idsBelow
    refine trans ?_ (ih hids')
    cases child.2 with
    | add options => exact addJob _ _ hids
    | duplicate id => exact refl db

theorem createWait (now : Time) (key : GroupKey) (call : WaitCall) (prepared : List Prepared)
    (hids : db.IdsBelow) : Fills db (createWait now key call prepared db).1 := by
  have hchildren := enqueueChildren now call.queue (call.inputs.zip prepared)
    (show (insertGroup now key call db).IdsBelow from hids)
  refine ⟨fun id hrow => ?_, fun id hle hlt => ?_⟩
  · have hrow' := hchildren.rows id hrow
    simp only [BetterGraphileWorker.createWait, get?_markWaited, insertWaits_jobs, Option.isSome_map]
    exact hrow'
  · have hrow' := hchildren.fresh id hle hlt
    simp only [BetterGraphileWorker.createWait, get?_markWaited, insertWaits_jobs, Option.isSome_map]
    exact hrow'

end Fills

section
variable {s s' : State} {r : Reply} {e : Event}

private theorem fresh_waitCommit (hwf : Wf s) {id : JobId} {prepared : List Prepared}
    (h : s.waitCommit id prepared = some (s', r)) : Fills s.db s'.db := by
  obtain ⟨k, now, call, suspended, found, a, -, -, -, ⟨rfl, -⟩ | ⟨db, entered, hok, -, rfl⟩⟩ :=
    State.waitCommit_cases h
  · exact .refl _
  cases found with
  | none =>
    rw [enterWait_missing] at hok
    simp only [Except.ok.injEq, Prod.mk.injEq] at hok
    obtain ⟨rfl, -⟩ := hok
    exact (Fills.createWait now _ call prepared hwf.idsBelow).trans
      (.of_keeps (.suspendJob _ _) suspendJob_nextId)
  | some group =>
    refine .of_keeps (.enterWait hwf.idsBelow hok) ?_
    obtain ⟨checkpoint, -, -, hfin⟩ | ⟨-, -, -, rfl⟩ := enterWait_found hok
    · obtain ⟨-, db₁, hwrite, rfl⟩ := finishWait_ok hfin
      exact (patchEnvelope_frame hwrite).2.2
    · exact suspendJob_nextId

/-- Every id that a step takes from the sequence has a row after it. -/
theorem fresh_row (hwf : Wf s) (h : s.exec e = some (s', r)) {id : JobId} (hle : s.db.nextId ≤ id)
    (hlt : id < s'.db.nextId) : (s'.db.jobs.get? id).isSome := by
  by_cases he : State.enqueues e = false
  · rw [State.nextId_of_not_enqueues h he] at hlt
    exact absurd (lt_of_le_of_lt hle hlt) (lt_irrefl _)
  cases e with
  | addJob now spec =>
    obtain ⟨-, rfl⟩ := State.addJob_cases h
    exact (Fills.addJob now spec hwf.idsBelow).fresh id hle hlt
  | waitCommit id' prepared => exact (fresh_waitCommit hwf h).fresh id hle hlt
  | continueCommit id' =>
    obtain ⟨k, now, job, runAt, traceparent, progress, a, htx, ha, -, ⟨rfl, -⟩ |
      ⟨db, next, hok, -, rfl⟩⟩ := State.continueCommit_cases h
    · exact absurd (lt_of_le_of_lt hle hlt) (lt_irrefl _)
    obtain ⟨-, hnext, -, hrows, -⟩ := State.continue_tables hwf htx ha hok
    obtain rfl : id = s.db.nextId := by
      have hlt' : id < db.nextId := hlt
      rw [hnext] at hlt'
      exact le_antisymm (Nat.le_of_lt_succ hlt') hle
    show (db.jobs.get? s.db.nextId).isSome
    rw [hrows, if_pos rfl]
    rfl
  | _ => exact absurd rfl he

end

/-! ## What a step does to one job -/

/-- What a step does to the row and the outcome with the given id. -/
inductive Change (s : State) (id : JobId) (s' : State) : Prop where
  | kept (hrow : (s'.db.jobs.get? id).isSome = (s.db.jobs.get? id).isSome)
      (hout : s'.db.outcomes.get? id = s.db.outcomes.get? id)
  | enqueued (hid : s.db.nextId ≤ id) (hout : s'.db.outcomes.get? id = s.db.outcomes.get? id)
  /-- Only a failed job keeps its row beside its outcome. -/
  | recorded {outcome : Outcome} (hrow : (s.db.jobs.get? id).isSome)
      (hout : s'.db.outcomes.get? id = some outcome)
      (hend : outcome.state ≠ .failed → s'.db.jobs.get? id = none)
  | pruned {outcome : Outcome} (hrow : s'.db.jobs.get? id = s.db.jobs.get? id)
      (hbefore : s.db.outcomes.get? id = some outcome) (hafter : s'.db.outcomes.get? id = none)
      (hold : outcome.finishedAt < s'.now - 1000 * (retention : ℤ))

structure Inv (p : State × Past) : Prop where
  wf : Wf p.1
  records : ∀ k a, p.1.attempts.get? k = some a → a.jobOutcomes = true
  below : ∀ id outcome, p.2.last id = some outcome → id < p.1.db.nextId
  last : ∀ id outcome, p.1.db.outcomes.get? id = some outcome → p.2.last id = some outcome
  kept : ∀ id outcome, p.2.last id = some outcome →
    p.1.db.outcomes.get? id = some outcome ∨ outcome.finishedAt < p.1.now - 1000 * (retention : ℤ)
  gone : ∀ id, 1 ≤ id → id < p.1.db.nextId → p.1.db.jobs.get? id = none → (p.2.last id).isSome
  single : ∀ id outcome, p.2.last id = some outcome → outcome.state ≠ .failed →
    p.1.db.jobs.get? id = none
  ended : ∀ id, p.2.ended id = true → p.1.db.jobs.get? id = none ∧ id < p.1.db.nextId

section
variable {retention} {s s' : State} {past : Past} {e : Event} {r : Reply} {id : JobId}

/-- A step that deletes no row with the id, and leaves its outcome alone. -/
private theorem change_of_keeps (hwf : Wf s) (h : s.exec e = some (s', r))
    (hrow : KeepsRow s.db s'.db id) (hout : s'.db.outcomes.get? id = s.db.outcomes.get? id) :
    Change retention s id s' := by
  cases hbefore : s.db.jobs.get? id with
  | some job =>
    obtain ⟨job', hafter, -⟩ := hrow job hbefore
    exact .kept (by rw [hbefore, hafter]; rfl) hout
  | none =>
    cases hafter : s'.db.jobs.get? id with
    | none => exact .kept (by rw [hbefore, hafter]) hout
    | some job' =>
      rcases State.row_created hwf h hafter with ⟨job, hrow', -⟩ | ⟨-, hnew⟩
      · rw [hbefore] at hrow'
        cases hrow'
      · exact .enqueued hnew hout

private theorem state_of_settles {settle : Settle} (h : settlesOutcome settle = true) :
    ∃ settled, settle.outcome = some settled ∧ (settled.state ≠ .failed → settle.row = .delete) := by
  unfold settlesOutcome at h
  split at h
  · rename_i hsettled
    exact ⟨_, hsettled, fun _ => of_decide_eq_true h⟩
  · rename_i hsettled
    exact ⟨_, hsettled, fun hnot => absurd rfl hnot⟩
  · cases h

private theorem change_worker (hinv : Inv retention (s, past))
    (hcond : Records (s, past) (.worker e) = true) (h : s.exec e = some (s', r)) :
    Change retention s id s' := by
  cases State.outcome_change hinv.wf h with
  | kept hk => exact change_of_keeps hinv.wf h (hk.row id) (by rw [hk.outcomes])
  | @completed pool id' he hgone hrows houtcomes =>
    by_cases hid : id = id'
    · subst hid he
      have hbefore := (hinv.ended id hcond).1
      exact .kept (by rw [hgone, hbefore]) (by rw [houtcomes])
    · exact change_of_keeps hinv.wf h (hrows id hid) (by rw [houtcomes])
  | @settled now k settle visible a job he hr ha hown hsettled hrows houtcomes =>
    subst he
    obtain ⟨settled, hsome, hdelete⟩ := state_of_settles hcond
    simp only [hsome] at houtcomes
    by_cases hid : id = a.job.id
    · subst hid
      have hbefore := (owned_eq_some_iff.mp hown).1
      refine .recorded (by rw [hbefore]; rfl) (by rw [houtcomes, get?_recordOutcome, if_pos rfl]) ?_
      intro hnot
      cases hafter : s'.db.jobs.get? a.job.id with
      | none => rfl
      | some job' =>
        rw [hafter, hdelete hnot] at hsettled
        obtain ⟨t, ⟨hrow, -⟩ | ⟨hrow, -⟩⟩ := hsettled <;> cases hrow
    · refine change_of_keeps hinv.wf h (hrows id hid) ?_
      rw [houtcomes, get?_recordOutcome, if_neg hid]
  | @continued id' k now job runAt traceparent progress a he hr htx ha hid' hbefore ho hgone hrows
      houtcomes =>
    by_cases hid : id = id'
    · subst hid
      refine .recorded (by rw [hbefore]; rfl) (by rw [houtcomes, get?_recordOutcome, if_pos rfl]) ?_
      exact fun _ => hgone
    · refine change_of_keeps hinv.wf h (hrows id hid) ?_
      rw [houtcomes, get?_recordOutcome, if_neg hid]

/-! ## Administration -/

/-- An administrator's update keeps every row under its id, with its key and its lock. -/
structure Administered (s s' : State) : Prop where
  frame : s'.now = s.now ∧ s'.attempts = s.attempts ∧ s'.nextAttempt = s.nextAttempt ∧ s'.txs = s.txs
  nextId : s'.db.nextId = s.db.nextId
  groups : s'.db.groups = s.db.groups
  rows : ∀ id, ∃ f : Job → Job, s'.db.jobs.get? id = (s.db.jobs.get? id).map f ∧
    (∀ job, (f job).key = job.key ∧ (f job).lock = job.lock) ∧
    ((s.txs.get? id).isSome → s'.db.jobs.get? id = s.db.jobs.get? id)

theorem Administered.wf (h : Administered s s') (hwf : Wf s) : Wf s' := by
  obtain ⟨hnow, hattempts, hnext, htxs⟩ := h.frame
  have hrow : ∀ id job', s'.db.jobs.get? id = some job' → ∃ job, s.db.jobs.get? id = some job ∧
      job'.key = job.key ∧ job'.lock = job.lock := by
    intro id job' hget
    obtain ⟨f, hf, hcolumns, -⟩ := h.rows id
    obtain ⟨job, hjob, rfl⟩ := Option.map_eq_some_iff.mp (hf ▸ hget)
    exact ⟨job, hjob, hcolumns job⟩
  refine ⟨fun id job' hget => ?_, fun id id' job job' key hget hget' hkey hkey' => ?_, ?_, ?_, ?_, ?_⟩
  · obtain ⟨job, hjob, -⟩ := hrow id job' hget
    exact h.nextId ▸ hwf.idsBelow id job hjob
  · obtain ⟨row, hrow₁, hk, -⟩ := hrow id job hget
    obtain ⟨row', hrow₂, hk', -⟩ := hrow id' job' hget'
    exact hwf.keysUnique id id' row row' key hrow₁ hrow₂ (hk.symm.trans hkey) (hk'.symm.trans hkey')
  · rw [hattempts, hnext, h.nextId]
    exact hwf.attemptBelow
  · rw [hattempts]
    exact hwf.lockCopy
  · intro id job' lock hget hlock
    obtain ⟨job, hjob, -, hl⟩ := hrow id job' hget
    rw [hattempts]
    exact hwf.given id job lock hjob (hl ▸ hlock)
  · intro id tx htx
    rw [htxs] at htx
    obtain ⟨a, job, ha, hid, hjob, howns, hstart, hok⟩ := hwf.tx id tx htx
    obtain ⟨-, -, -, hheld⟩ := h.rows id
    refine ⟨a, job, hattempts ▸ ha, hid, ?_, howns, hnow ▸ hstart, ?_⟩
    · rw [hheld (by rw [htx]; rfl), hjob]
    · obtain ⟨k, now, stage⟩ := tx
      cases stage with
      | waitLooked call suspended found => simpa only [StageOk, findGroup, h.groups] using hok
      | _ => exact hok

private theorem administered_of_exec {now : Time} {ids : List JobId} {f : Job → Job}
    (hwf : Wf s) (hf : ∀ job, (f job).key = job.key ∧ (f job).lock = job.lock)
    (h : administered s now ids (administer now ids f) = some s') :
    Administered s s' ∧ s'.db.outcomes = s.db.outcomes := by
  unfold administered at h
  split at h
  · rename_i hfree
    simp only [Option.some.injEq] at h
    subst h
    refine ⟨⟨⟨rfl, rfl, rfl, rfl⟩, rfl, rfl, fun id => ⟨_, Table.get?_modify _, fun job => ?_, ?_⟩⟩, rfl⟩
    · split
      · exact hf job
      · exact ⟨rfl, rfl⟩
    · -- A row that an open transaction holds is not among those the update writes.
      intro hheld
      obtain ⟨tx, htx⟩ := Option.isSome_iff_exists.mp hheld
      obtain ⟨-, job, -, -, hrow, -⟩ := hwf.tx id tx htx
      have hany : (s.txs.any fun id _ =>
          decide (id ∈ ids) && (s.db.jobs.get? id).any (·.administrable now)) = false := by
        simpa only [rowsFree, Bool.not_eq_true'] using hfree.1
      have hnot := Table.any_eq_false_iff.mp hany id tx htx
      simp only [administer, Table.get?_modify, hrow, Option.map_some, Option.some.injEq]
      rw [if_neg]
      rintro ⟨hid, hadministrable⟩
      simp [hrow, hid, hadministrable] at hnot
  · cases h

private theorem administered_prune {now : Time} {skipped : JobId → Bool}
    (h : exec retention s (.prune now skipped) = some s') : Administered s s' ∧ now ≤ s.now ∧
      s'.db.jobs = s.db.jobs ∧ ∀ id, s'.db.outcomes.get? id = (s.db.outcomes.get? id).filter fun outcome =>
        !(outcome.finishedAt < now - 1000 * (retention : ℤ) && !skipped id) := by
  simp only [exec] at h
  split at h
  · rename_i hnow
    simp only [Option.some.injEq] at h
    subst h
    have hrows : ∀ id, ∃ f : Job → Job, s.db.jobs.get? id = (s.db.jobs.get? id).map f ∧
        (∀ job, (f job).key = job.key ∧ (f job).lock = job.lock) ∧
        ((s.txs.get? id).isSome → s.db.jobs.get? id = s.db.jobs.get? id) :=
      fun id => ⟨fun job => job, Option.map_id'.symm, fun job => ⟨rfl, rfl⟩, fun _ => rfl⟩
    exact ⟨⟨⟨rfl, rfl, rfl, rfl⟩, rfl, rfl, hrows⟩, hnow, rfl, fun id => Table.get?_filter⟩
  · cases h

private theorem change_administered (h : Administered s s') (hout : s'.db.outcomes = s.db.outcomes) :
    Change retention s id s' := by
  obtain ⟨f, hf, -⟩ := h.rows id
  exact .kept (by rw [hf, Option.isSome_map]) (by rw [hout])

/-! ## The invariant -/

/-- What keeps the invariant: every id changes as listed, and a run is told the truth. -/
private theorem inv_of_changes {e : Step} (hinv : Inv retention (s, past)) (hwf : Wf s')
    (hrecords : ∀ k a, s'.attempts.get? k = some a → a.jobOutcomes = true)
    (hnext : s.db.nextId ≤ s'.db.nextId) (hnow : s.now ≤ s'.now)
    (hfresh : ∀ id, s.db.nextId ≤ id → id < s'.db.nextId → (s'.db.jobs.get? id).isSome)
    (hchange : ∀ id, Change retention s id s')
    (hended : ∀ id, endedBy s e = some id → s'.db.jobs.get? id = none ∧ id < s'.db.nextId) :
    Inv retention (s', past.note s e s') := by
  -- Unless an outcome was recorded, the last one is the one before.
  have hsame : ∀ id, s'.db.outcomes.get? id = s.db.outcomes.get? id →
      (past.note s e s').last id = past.last id := by
    intro id hout
    show (s'.db.outcomes.get? id).or (past.last id) = _
    cases hbefore : s.db.outcomes.get? id with
    | none => rw [hout, hbefore, Option.none_or]
    | some outcome => rw [hout, hbefore, hinv.last id outcome hbefore, Option.some_or]
  have hrecorded : ∀ id outcome, s'.db.outcomes.get? id = some outcome →
      (past.note s e s').last id = some outcome := by
    intro id outcome hout
    show (s'.db.outcomes.get? id).or (past.last id) = _
    rw [hout, Option.some_or]
  have hpruned : ∀ id, s'.db.outcomes.get? id = none → (past.note s e s').last id = past.last id := by
    intro id hout
    show (s'.db.outcomes.get? id).or (past.last id) = _
    rw [hout, Option.none_or]
  have hkept : ∀ {outcome : Outcome}, outcome.finishedAt < s.now - 1000 * (retention : ℤ) →
      outcome.finishedAt < s'.now - 1000 * (retention : ℤ) :=
    fun h => lt_of_lt_of_le h (Int.sub_le_sub_right hnow _)
  -- A job that has an outcome is not new.
  have hold : ∀ id outcome, past.last id = some outcome → id < s.db.nextId :=
    fun id outcome hlast => hinv.below id outcome hlast
  refine ⟨hwf, hrecords, ?_, fun id outcome hout => hrecorded id outcome hout, ?_, ?_, ?_, ?_⟩
  · intro id outcome hlast
    cases hchange id with
    | kept hrow hout => exact lt_of_lt_of_le (hold id outcome (hsame id hout ▸ hlast)) hnext
    | enqueued hid hout => exact lt_of_lt_of_le (hold id outcome (hsame id hout ▸ hlast)) hnext
    | pruned hrow hbefore hafter => exact lt_of_lt_of_le (hold id outcome (hpruned id hafter ▸ hlast)) hnext
    | recorded hrow =>
      obtain ⟨job, hget⟩ := Option.isSome_iff_exists.mp hrow
      exact lt_of_lt_of_le (hinv.wf.idsBelow id job hget) hnext
  · intro id outcome hlast
    cases hchange id with
    | kept hrow hout | enqueued hid hout =>
      rw [hsame id hout] at hlast
      rw [hout]
      exact (hinv.kept id outcome hlast).imp_right hkept
    | pruned hrow hbefore hafter hexpired =>
      rw [hpruned id hafter, hinv.last id _ hbefore] at hlast
      obtain rfl := Option.some.inj hlast
      exact .inr hexpired
    | recorded hrow hout =>
      obtain rfl := Option.some.inj ((hrecorded id _ hout).symm.trans hlast)
      exact .inl hout
  · intro id hpos hlt hnone
    by_cases hnew : id < s.db.nextId
    · cases hchange id with
      | kept hrow hout =>
        rw [hsame id hout]
        rw [hnone] at hrow
        exact hinv.gone id hpos hnew (Option.isNone_iff_eq_none.mp (by simpa using hrow.symm))
      | enqueued hid => exact absurd (lt_of_lt_of_le hnew hid) (lt_irrefl _)
      | pruned hrow hbefore hafter => rw [hpruned id hafter, hinv.last id _ hbefore]; rfl
      | recorded hrow hout => rw [hrecorded id _ hout]; rfl
    · have hrow := hfresh id (le_of_not_gt hnew) hlt
      rw [hnone] at hrow
      cases hrow
  · intro id outcome hlast hstate
    cases hchange id with
    | kept hrow hout =>
      have hbefore := hinv.single id outcome (hsame id hout ▸ hlast) hstate
      rw [hbefore] at hrow
      exact Option.isNone_iff_eq_none.mp (by simpa using hrow)
    | enqueued hid hout =>
      have hlt := hold id outcome (hsame id hout ▸ hlast)
      exact absurd (lt_of_lt_of_le hlt hid) (lt_irrefl _)
    | pruned hrow hbefore hafter =>
      rw [hrow]
      exact hinv.single id outcome (hpruned id hafter ▸ hlast) hstate
    | recorded hrow hout hend =>
      obtain rfl := Option.some.inj ((hrecorded id _ hout).symm.trans hlast)
      exact hend hstate
  · intro id hended'
    simp only [Past.note, Bool.or_eq_true, decide_eq_true_eq] at hended'
    rcases hended' with hended' | hended'
    · obtain ⟨hnone, hlt⟩ := hinv.ended id hended'
      refine ⟨?_, lt_of_lt_of_le hlt hnext⟩
      cases hchange id with
      | kept hrow =>
        rw [hnone] at hrow
        exact Option.isNone_iff_eq_none.mp (by simpa using hrow)
      | enqueued hid => exact absurd (lt_of_lt_of_le hlt hid) (lt_irrefl _)
      | pruned hrow => rw [hrow, hnone]
      | recorded hrow => rw [hnone] at hrow; cases hrow
    · exact hended id hended'

private theorem records_exec (hinv : Inv retention (s, past))
    (hcond : Records (s, past) (.worker e) = true) (h : s.exec e = some (s', r)) {k : ℕ} {a' : Attempt}
    (ha' : s'.attempts.get? k = some a') : a'.jobOutcomes = true := by
  have hchange := State.attempt_change h k
  rw [ha'] at hchange
  generalize hbefore : s.attempts.get? k = before at hchange
  cases hchange with
  | same => exact hinv.records k a' hbefore
  | started o he => subst he; exact hcond
  | left a he htx hr =>
    rename_i entered
    cases entered <;> exact hinv.records k a hbefore
  | checkpointed a | progressed a | called a | continued a => exact hinv.records k a hbefore

/-- A run that is told that it deleted its job has deleted it. -/
private theorem ended_exec (hinv : Inv retention (s, past)) (h : s.exec e = some (s', r))
    (hended : endedBy s (.worker e) = some id) :
    s'.db.jobs.get? id = none ∧ id < s'.db.nextId := by
  have hnext := (State.db_ok hinv.wf h).1
  unfold endedBy at hended
  split at hended
  · rename_i now k settle visible heq
    cases heq
    split at hended
    · rename_i s₁ hsettle
      obtain ⟨rfl, -⟩ := Prod.mk.inj (Option.some.inj (hsettle.symm.trans h))
      split at hended
      · rename_i hdelete
        obtain ⟨a, job, ha, hown, hsettled, -⟩ := State.settled_outcome hsettle
        rw [ha] at hended
        obtain rfl : a.job.id = id := Option.some.inj hended
        obtain ⟨hrow, -⟩ := owned_eq_some_iff.mp hown
        refine ⟨?_, lt_of_lt_of_le (hinv.wf.idsBelow _ _ hrow) hnext⟩
        cases hafter : s₁.db.jobs.get? a.job.id with
        | none => rfl
        | some job' =>
          rw [hafter, hdelete] at hsettled
          obtain ⟨t, ⟨hmode, -⟩ | ⟨hmode, -⟩⟩ := hsettled <;> cases hmode
      · cases hended
    · cases hended
  · rename_i id' heq
    cases heq
    split at hended
    · rename_i s₁ next hcommit
      obtain rfl : id' = id := Option.some.inj hended
      obtain ⟨rfl, rfl⟩ := Prod.mk.inj (Option.some.inj (hcommit.symm.trans h))
      obtain ⟨k, now, job, runAt, traceparent, progress, a, htx, ha, -⟩ :=
        State.continueCommit_cases hcommit
      obtain ⟨-, -, hrow, hafter, -⟩ := State.continued_outcome hinv.wf hcommit htx ha
      rw [hinv.records k a ha, if_pos rfl] at hafter
      exact ⟨hafter, lt_of_lt_of_le (hinv.wf.idsBelow _ _ hrow) hnext⟩
    · cases hended
  · cases hended

private theorem inv_administered {e : Step} (hinv : Inv retention (s, past)) (h : Administered s s')
    (hchange : ∀ id, Change retention s id s') (he : ∀ id, endedBy s e ≠ some id) :
    Inv retention (s', past.note s e s') := by
  obtain ⟨hnow, hattempts, -⟩ := h.frame
  refine inv_of_changes hinv (h.wf hinv.wf) ?_ h.nextId.ge hnow.ge ?_ hchange ?_
  · rw [hattempts]
    exact hinv.records
  · intro id hle hlt
    rw [h.nextId] at hlt
    exact absurd (lt_of_le_of_lt hle hlt) (lt_irrefl _)
  · exact fun id hended => absurd hended (he id)

private theorem change_prune {now : Time} {skipped : JobId → Bool}
    (h : exec retention s (.prune now skipped) = some s') : Change retention s id s' := by
  obtain ⟨hadministered, hnow, hjobs, houtcomes⟩ := administered_prune h
  have hrow : s'.db.jobs.get? id = s.db.jobs.get? id := by rw [hjobs]
  cases hbefore : s.db.outcomes.get? id with
  | none => exact .kept (by rw [hrow]) (by rw [houtcomes, hbefore]; rfl)
  | some outcome =>
    by_cases hold : outcome.finishedAt < now - 1000 * (retention : ℤ) ∧ skipped id = false
    · refine .pruned hrow hbefore ?_ ?_
      · simp only [houtcomes, hbefore, Option.filter_some, decide_eq_true hold.1, hold.2, Bool.not_false,
          Bool.and_self, Bool.not_true, Bool.false_eq_true, if_false]
      · rw [hadministered.frame.1]
        exact lt_of_lt_of_le hold.1 (Int.sub_le_sub_right hnow _)
    · refine .kept (by rw [hrow]) ?_
      rw [houtcomes, hbefore, Option.filter_eq_some_iff]
      refine ⟨rfl, ?_⟩
      simp only [Bool.not_eq_true', Bool.and_eq_false_iff, decide_eq_false_iff_not, Bool.not_eq_false']
      by_cases hfinished : outcome.finishedAt < now - 1000 * (retention : ℤ)
      · refine .inr ?_
        cases hskipped : skipped id with
        | true => rfl
        | false => exact absurd ⟨hfinished, hskipped⟩ hold
      · exact .inl hfinished

theorem inv_exec {e : Step} (hinv : Inv retention (s, past)) (hcond : Records (s, past) e = true)
    (h : exec retention s e = some s') :
    Inv retention (s', past.note s e s') ∧ ∀ id, Change retention s id s' := by
  cases e with
  | worker e =>
    obtain ⟨⟨s₁, r⟩, hexec, rfl⟩ := Option.map_eq_some_iff.mp h
    have hchange : ∀ id, Change retention s id s₁ := fun id => change_worker hinv hcond hexec
    refine ⟨inv_of_changes hinv (State.wf_exec hinv.wf hexec) ?_ (State.db_ok hinv.wf hexec).1
      (State.now_le hexec) ?_ hchange ?_, hchange⟩
    · exact fun k a ha => records_exec hinv hcond hexec ha
    · exact fun id hle hlt => fresh_row hinv.wf hexec hle hlt
    · exact fun id hended => ended_exec hinv hexec hended
  | reschedule now ids columns =>
    obtain ⟨hadministered, hout⟩ := administered_of_exec (f := (·.reschedule columns)) hinv.wf
      (fun _ => ⟨rfl, rfl⟩) h
    have hchange : ∀ id, Change retention s id s' := fun id => change_administered hadministered hout
    exact ⟨inv_administered hinv hadministered hchange fun id hended => (by cases hended), hchange⟩
  | permanentlyFail now ids reason =>
    obtain ⟨hadministered, hout⟩ := administered_of_exec (f := (·.permanentlyFail reason)) hinv.wf
      (fun _ => ⟨rfl, rfl⟩) h
    have hchange : ∀ id, Change retention s id s' := fun id => change_administered hadministered hout
    exact ⟨inv_administered hinv hadministered hchange fun id hended => (by cases hended), hchange⟩
  | prune now skipped =>
    have hchange : ∀ id, Change retention s id s' := fun id => change_prune h
    have hkept := inv_administered (e := .prune now skipped) hinv (administered_prune h).1 hchange
    exact ⟨hkept fun id hended => (by cases hended), hchange⟩

end

section
variable {retention} {p p' p'' : State × Past} {e : Step} {id : JobId}

private theorem inv_step (hinv : Inv retention p) (hcond : Records p e = true)
    (h : (recorder retention).step p e = some p') :
    Inv retention p' ∧ ∀ id, Change retention p.1 id p'.1 := by
  obtain ⟨s, past⟩ := p
  obtain ⟨s', past'⟩ := p'
  obtain ⟨hexec, hpast⟩ := TransitionSystem.observe_step_iff.mp h
  simp only at hexec hpast
  subst hpast
  exact inv_exec hinv hcond hexec

theorem inv_recorded (h : Recorded retention p) : Inv retention p := by
  refine h.invariant ?_ fun p e p' _ hinv hcond hstep => (inv_step hinv hcond hstep).1
  rintro ⟨s, past⟩ ⟨hs, hpast⟩
  obtain rfl : s = State.initial := hs
  simp only at hpast
  subst hpast
  exact {
    wf := State.wf_initial
    records := fun _ _ ha => by cases ha
    below := fun _ _ hlast => by cases hlast
    last := fun _ _ hout => by cases hout
    kept := fun _ _ hlast => by cases hlast
    gone := fun id hpos hlt => absurd (lt_of_le_of_lt hpos hlt) (lt_irrefl _)
    single := fun _ _ hlast => by cases hlast
    ended := fun _ hended => by cases hended }

/-- A job without a row keeps its last outcome. -/
structure Goes (p p' : State × Past) : Prop where
  nextId : p.1.db.nextId ≤ p'.1.db.nextId
  gone : ∀ id, id < p.1.db.nextId → p.1.db.jobs.get? id = none →
    p'.1.db.jobs.get? id = none ∧ p'.2.last id = p.2.last id

private theorem nextId_exec (hinv : Inv retention p) (h : exec retention p.1 e = some p'.1) :
    p.1.db.nextId ≤ p'.1.db.nextId := by
  cases e with
  | worker e =>
    obtain ⟨⟨s, r⟩, hexec, hs⟩ := Option.map_eq_some_iff.mp h
    rw [← hs]
    exact (State.db_ok hinv.wf hexec).1
  | reschedule now ids columns =>
    obtain ⟨hadministered, -⟩ := administered_of_exec (f := (·.reschedule columns)) hinv.wf
      (fun _ => ⟨rfl, rfl⟩) h
    exact hadministered.nextId.ge
  | permanentlyFail now ids reason =>
    obtain ⟨hadministered, -⟩ := administered_of_exec (f := (·.permanentlyFail reason)) hinv.wf
      (fun _ => ⟨rfl, rfl⟩) h
    exact hadministered.nextId.ge
  | prune now skipped => exact (administered_prune h).1.nextId.ge

private theorem goes_step (hinv : Inv retention p) (hcond : Records p e = true)
    (h : (recorder retention).step p e = some p') : Goes p p' := by
  obtain ⟨-, hchange⟩ := inv_step hinv hcond h
  obtain ⟨hexec, hpast⟩ := TransitionSystem.observe_step_iff.mp h
  refine ⟨nextId_exec hinv hexec, fun id hid hnone => ?_⟩
  have hlast : p'.2.last id = (p'.1.db.outcomes.get? id).or (p.2.last id) := by rw [hpast]; rfl
  rw [hlast]
  cases hchange id with
  | enqueued hnew => exact absurd (lt_of_lt_of_le hid hnew) (lt_irrefl _)
  | recorded hrow => rw [hnone] at hrow; cases hrow
  | pruned hrow hbefore hafter => exact ⟨hrow.trans hnone, by rw [hafter, Option.none_or]⟩
  | kept hrow hout =>
    rw [hnone] at hrow
    refine ⟨Option.isNone_iff_eq_none.mp (by simpa using hrow), ?_⟩
    cases hbefore : p.1.db.outcomes.get? id with
    | none => rw [hout, hbefore, Option.none_or]
    | some outcome => rw [hout, hbefore, Option.some_or, hinv.last id outcome hbefore]

theorem goes_later (hp : Recorded retention p) (h : Later retention p p') : Goes p p' := by
  refine TransitionSystem.Leads.relates ?_ ?_ ?_ hp h
  · exact fun p => ⟨le_refl _, fun id _ hnone => ⟨hnone, rfl⟩⟩
  · intro p p' p'' hgoes hgoes'
    refine ⟨hgoes.nextId.trans hgoes'.nextId, fun id hid hnone => ?_⟩
    obtain ⟨hnone', hlast⟩ := hgoes.gone id hid hnone
    obtain ⟨hnone'', hlast'⟩ := hgoes'.gone id (lt_of_lt_of_le hid hgoes.nextId) hnone'
    exact ⟨hnone'', hlast'.trans hlast⟩
  · exact fun p e p' hp hcond hstep => goes_step (inv_recorded hp) hcond hstep

/-! ## Completeness -/

/--
Every enqueued job has a row, or an outcome until its retention passes; and no row is left
beside an outcome that says that the job completed or continued.
-/
theorem outcomes_complete (h : Recorded retention p) (hpos : 1 ≤ id) (hid : id < p.1.db.nextId) :
    ((p.1.db.jobs.get? id).isSome ∨ (p.1.db.outcomes.get? id).isSome ∨ Expired retention p id) ∧
      ∀ outcome, p.1.db.outcomes.get? id = some outcome → outcome.state ≠ .failed →
        p.1.db.jobs.get? id = none := by
  have hinv := inv_recorded h
  refine ⟨?_, fun outcome hout => hinv.single id outcome (hinv.last id outcome hout)⟩
  cases hrow : p.1.db.jobs.get? id with
  | some job => exact .inl rfl
  | none =>
    obtain ⟨outcome, hlast⟩ := Option.isSome_iff_exists.mp (hinv.gone id hpos hid hrow)
    rcases hinv.kept id outcome hlast with hout | hexpired
    · exact .inr (.inl (by rw [hout]; rfl))
    · exact .inr (.inr ⟨outcome, hlast, hexpired⟩)

private theorem finished_of_maySuspend {standing : Standing} (h : standing.maySuspend = true) :
    standing.finished = false := by
  cases standing with
  | pending | retrying | running | waiting => rfl
  | failed | completed | continued => cases h

/-- A finished state is read by the first statement, of a job that has a row. -/
private theorem queryJob_finished {now updatedAt : Time} {first second : Db} (second' : Db) {job : Job}
    {fields : JobFields} {standing : Standing} (hzero : id ≠ 0) (hrow : first.jobs.get? id = some job)
    (hquery : queryJob now updatedAt id first second = .ok (.found fields standing))
    (hfinished : standing.finished = true) :
    queryJob now updatedAt id first second = queryJob now updatedAt id first second' := by
  cases hsuspend : (liveStanding updatedAt job).maySuspend with
  | false => simp only [queryJob, if_neg hzero, hrow, hsuspend, Bool.false_eq_true, false_and, if_false]
  | true =>
    obtain ⟨fields', standing', hquery', hlive⟩ :=
      @queryJob_live now updatedAt id first second job hzero hrow
    rw [hquery] at hquery'
    obtain ⟨rfl, rfl⟩ := JobState.found.inj (Except.ok.inj hquery')
    obtain ⟨-, rfl⟩ := JobState.found.inj (hlive hfinished)
    rw [finished_of_maySuspend hsuspend] at hfinished
    cases hfinished

/-- What `getJob` finds of a job that is gone, whenever it read the row. -/
private theorem queryJob_of_gone {now updatedAt : Time} {first : Db} (hinv : Inv retention p)
    {outcome : Outcome} (hzero : id ≠ 0) (hfirst : first.jobs.get? id = none)
    (hlast : p.2.last id = some outcome) :
    queryJob now updatedAt id first p.1.db = .ok (outcomeState id outcome) ∨
      queryJob now updatedAt id first p.1.db = .ok (.notFound id) ∧ Expired retention p id := by
  rw [queryJob_gone hzero hfirst]
  cases hout : p.1.db.outcomes.get? id with
  | some outcome' =>
    obtain rfl := Option.some.inj ((hinv.last id outcome' hout).symm.trans hlast)
    exact .inl rfl
  | none =>
    rcases hinv.kept id outcome hlast with hkept | hexpired
    · rw [hout] at hkept
      cases hkept
    · exact .inr ⟨rfl, outcome, hlast, hexpired⟩

/-- A finished state, or that the job is not there. -/
def conclusive : JobState → Bool
  | .notFound _ => true
  | .found _ standing => standing.finished

/--
`getJob` finds every job that was enqueued before its first statement, until the retention of
its outcome passes. A finished state that it returns is the one that both statements would have
read at the moment of the first, or of the second.
-/
theorem getJob_complete (h : Recorded retention p) (hlater : Later retention p p') (hpos : 1 ≤ id)
    (hid : id < p.1.db.nextId) (now updatedAt : Time) :
    ∃ answer, queryJob now updatedAt id p.1.db p'.1.db = .ok answer ∧
      (answer = .notFound id → Expired retention p' id) ∧
      (conclusive answer = true → queryJob now updatedAt id p.1.db p.1.db = .ok answer ∨
        queryJob now updatedAt id p'.1.db p'.1.db = .ok answer) := by
  have hinv := inv_recorded h
  have hinv' := inv_recorded (hlater.reachableWith h)
  have hzero : id ≠ 0 := Nat.one_le_iff_ne_zero.mp hpos
  cases hrow : p.1.db.jobs.get? id with
  | some job =>
    obtain ⟨fields, standing, hquery, hlive⟩ :=
      @queryJob_live now updatedAt id p.1.db p'.1.db job hzero hrow
    refine ⟨_, hquery, fun hnot => (by cases hnot), fun hfinished => .inl ?_⟩
    rw [← queryJob_finished p.1.db hzero hrow hquery hfinished]
    exact hquery
  | none =>
    obtain ⟨hnone', hlast'⟩ := (goes_later h hlater).gone id hid hrow
    obtain ⟨outcome, hlast⟩ := Option.isSome_iff_exists.mp (hinv.gone id hpos hid hrow)
    have hsame : queryJob now updatedAt id p'.1.db p'.1.db = queryJob now updatedAt id p.1.db p'.1.db := by
      rw [queryJob_gone hzero hrow, queryJob_gone hzero hnone']
    rw [hsame]
    rcases queryJob_of_gone hinv' hzero hrow (hlast'.trans hlast) with hquery | ⟨hquery, hexpired⟩
    · exact ⟨_, hquery, fun hnot => (by cases hnot), fun _ => .inr hquery⟩
    · exact ⟨_, hquery, fun _ => hexpired, fun _ => .inr hquery⟩

/-- The job completed or continued. -/
def succeeded : JobState → Bool
  | .found _ (.completed _) | .found _ (.continued _ _) => true
  | _ => false

/-- Such a state is read from an outcome, of a job whose row is gone. -/
private theorem outcome_of_succeeded {now updatedAt : Time} {first second : Db} {answer : JobState}
    (hquery : queryJob now updatedAt id first second = .ok answer) (hdone : succeeded answer = true) :
    id ≠ 0 ∧ ∃ outcome, second.outcomes.get? id = some outcome ∧ outcome.state ≠ .failed ∧
      answer = outcomeState id outcome := by
  have hzero : id ≠ 0 := by
    rintro rfl
    cases hquery
  refine ⟨hzero, ?_⟩
  cases hrow : first.jobs.get? id with
  | some job =>
    obtain ⟨fields, standing, hquery', hlive⟩ :=
      @queryJob_live now updatedAt id first second job hzero hrow
    rw [hquery] at hquery'
    obtain rfl := Except.ok.inj hquery'
    have hfinished : standing.finished = true := by
      cases standing <;> first | rfl | cases hdone
    obtain ⟨-, rfl⟩ := JobState.found.inj (hlive hfinished)
    unfold liveStanding at hdone
    split at hdone
    · cases hdone
    · split at hdone
      · cases hdone
      · split at hdone <;> cases hdone
  | none =>
    rw [queryJob_gone hzero hrow] at hquery
    cases hout : second.outcomes.get? id with
    | none =>
      rw [hout] at hquery
      obtain rfl := Except.ok.inj hquery
      cases hdone
    | some outcome =>
      rw [hout] at hquery
      obtain rfl := Except.ok.inj hquery
      refine ⟨outcome, rfl, fun hfailed => ?_, rfl⟩
      simp only [outcomeState, outcomeStanding, hfailed, succeeded] at hdone
      cases hdone

/--
Once `getJob` returned that a job completed or continued, it returns the very same until the
retention of the outcome passes, whatever its statements run between.
-/
theorem getJob_final {p₁ p₂ p₃ : State × Past} (h : Recorded retention p) (h₁ : Later retention p p₁)
    {now updatedAt : Time} {answer : JobState}
    (hquery : queryJob now updatedAt id p.1.db p₁.1.db = .ok answer) (hdone : succeeded answer = true)
    (h₂ : Later retention p₁ p₂) (h₃ : Later retention p₂ p₃) (now' updatedAt' : Time) :
    queryJob now' updatedAt' id p₂.1.db p₃.1.db = .ok answer ∨
      queryJob now' updatedAt' id p₂.1.db p₃.1.db = .ok (.notFound id) ∧ Expired retention p₃ id := by
  have hp₁ : Recorded retention p₁ := h₁.reachableWith h
  have hp₂ : Recorded retention p₂ := h₂.reachableWith hp₁
  have hinv := inv_recorded hp₁
  obtain ⟨hzero, outcome, hout, hstate, rfl⟩ := outcome_of_succeeded hquery hdone
  have hlast := hinv.last id outcome hout
  have hid := hinv.below id outcome hlast
  have hgone := hinv.single id outcome hlast hstate
  have hgoes := goes_later hp₁ h₂
  obtain ⟨hgone₂, hlast₂⟩ := hgoes.gone id hid hgone
  obtain ⟨-, hlast₃⟩ := (goes_later hp₂ h₃).gone id (lt_of_lt_of_le hid hgoes.nextId) hgone₂
  exact queryJob_of_gone (inv_recorded (h₃.reachableWith hp₂)) hzero hgone₂
    (hlast₃.trans (hlast₂.trans hlast))

end

/-! ## A failed job that is retried -/

namespace RetriedTrace

def spec : JobSpec :=
  ⟨"import", Payload.injectTraceContext none none, none, none, some 4, none, none, none, .replace⟩

/-- The first run fails for good, and its row stays beside the outcome. -/
def failing : List Step :=
  [.worker (.addJob 0 spec), .worker (.claim 0 "p" 1 true),
    .worker (.settle 0 0 ⟨some (.failed "no such file"), none, .exhaust⟩ fun _ => true),
    .worker (.failJob 0 "p" 1 "no such file")]

/-- The job is retried, and completes. -/
def retrying : List Step :=
  [retryJobs 0 [1], .worker (.claim 0 "p" 1 true),
    .worker (.settle 0 1 ⟨some .completed, none, .delete⟩ fun _ => true), .worker (.completeJob "p" 1)]

/-- The outcome expires, and is pruned. -/
def pruning : List Step := [.worker (.tick 2000000), .prune 2000000 fun _ => false]

def records (p : State × Past) (e : Step) : Bool := Records p e

def start : State × Past := (State.initial, ⟨fun _ => false, fun _ => none⟩)

def failed : JobState := .found ⟨1, "import", 1, 1, 0, some "no such file"⟩ (.failed 0)

def completed : JobState := .found ⟨1, "import", 1, 1, 0, none⟩ (.completed 0)

/-- What `getJob` reads in the two states. -/
def reads (p p' : State × Past) : Option JobState := (queryJob 0 0 1 p.1.db p'.1.db).toOption

/-- The states after the failure, after the retry and after the pruning. -/
def states : Option ((State × Past) × (State × Past) × (State × Past)) := do
  let p ← (recorder 1000).runWith records start failing
  let p₁ ← (recorder 1000).runWith records p retrying
  let p₂ ← (recorder 1000).runWith records p₁ pruning
  some (p, p₁, p₂)

/-- Read before the retry the job has failed, read after it it completed, and later it is not found. -/
def answers : Option ((State × Past) × (State × Past) × (State × Past)) → Bool
  | some (p, p₁, p₂) => 1 < p.1.db.nextId && 1 < p₂.1.db.nextId && reads p p₁ = some failed &&
      reads p₁ p₁ = some completed && reads p₁ p₂ = some (.notFound 1)
  | none => false

theorem query_of_reads {p p' : State × Past} {answer : JobState} (h : reads p p' = some answer) :
    queryJob 0 0 1 p.1.db p'.1.db = .ok answer := by
  unfold reads at h
  cases hquery : queryJob 0 0 1 p.1.db p'.1.db with
  | error e => rw [hquery] at h; cases h
  | ok found =>
    rw [hquery] at h
    exact congrArg Except.ok (Option.some.inj h)

theorem runs_of_states {p p₁ p₂ : State × Past} (h : states = some (p, p₁, p₂)) :
    Recorded 1000 p ∧ Later 1000 p p₁ ∧ Later 1000 p₁ p₂ := by
  unfold states at h
  simp only [Option.bind_eq_bind, Option.bind_eq_some_iff, Option.some.injEq, Prod.mk.injEq] at h
  obtain ⟨q, hq, q₁, hq₁, q₂, hq₂, rfl, rfl, rfl⟩ := h
  have hcond : ∀ p e, records p e = true → Records p e = true := fun _ _ h => h
  have hstart : Recorded 1000 start := .init ⟨rfl, rfl⟩
  exact ⟨TransitionSystem.reachableWith_of_runWith hcond failing hstart hq,
    TransitionSystem.leads_of_runWith hcond retrying .refl hq₁,
    TransitionSystem.leads_of_runWith hcond pruning .refl hq₂⟩

/-- The states of the trace, and what `getJob` reads in them. -/
theorem exists_states : ∃ p p₁ p₂, Recorded 1000 p ∧ Later 1000 p p₁ ∧ Later 1000 p₁ p₂ ∧
    1 < p.1.db.nextId ∧ 1 < p₂.1.db.nextId ∧ queryJob 0 0 1 p.1.db p₁.1.db = .ok failed ∧
    queryJob 0 0 1 p₁.1.db p₁.1.db = .ok completed ∧
    queryJob 0 0 1 p₁.1.db p₂.1.db = .ok (.notFound 1) := by
  have hanswers : answers states = true := by decide
  unfold answers at hanswers
  split at hanswers
  · rename_i p p₁ p₂ hstates
    obtain ⟨hp, h₁, h₂⟩ := runs_of_states hstates
    simp only [Bool.and_eq_true, decide_eq_true_eq] at hanswers
    obtain ⟨⟨⟨⟨hid, hid₂⟩, hfailed⟩, hcompleted⟩, hpruned⟩ := hanswers
    exact ⟨p, p₁, p₂, hp, h₁, h₂, hid, hid₂, query_of_reads hfailed, query_of_reads hcompleted,
      query_of_reads hpruned⟩
  · cases hanswers

end RetriedTrace

theorem outcomes_complete_retried : ∃ p, Recorded 1000 p ∧
    ((p.1.db.jobs.get? 1).isSome ∨ (p.1.db.outcomes.get? 1).isSome ∨ Expired 1000 p 1) := by
  obtain ⟨p, p₁, p₂, hp, h₁, h₂, -, hid, -⟩ := RetriedTrace.exists_states
  have hp₂ : Recorded 1000 p₂ := h₂.reachableWith (h₁.reachableWith hp)
  exact ⟨p₂, hp₂, (outcomes_complete hp₂ (le_refl 1) hid).1⟩

theorem getJob_complete_retried : ∃ p p', Recorded 1000 p ∧ Later 1000 p p' ∧
    queryJob 0 0 1 p.1.db p'.1.db = .ok RetriedTrace.failed ∧
    (queryJob 0 0 1 p.1.db p.1.db = .ok RetriedTrace.failed ∨
      queryJob 0 0 1 p'.1.db p'.1.db = .ok RetriedTrace.failed) := by
  obtain ⟨p, p₁, p₂, hp, h₁, -, hid, -, hquery, -⟩ := RetriedTrace.exists_states
  obtain ⟨answer, hanswer, -, hatomic⟩ := getJob_complete hp h₁ (le_refl 1) hid 0 0
  obtain rfl := Except.ok.inj (hquery.symm.trans hanswer)
  exact ⟨p, p₁, hp, h₁, hquery, hatomic rfl⟩

/-- Once its outcome is pruned, the completed job is not found. -/
theorem getJob_final_retried : ∃ p p', Recorded 1000 p ∧ Later 1000 p p' ∧
    queryJob 0 0 1 p.1.db p.1.db = .ok RetriedTrace.completed ∧
    queryJob 0 0 1 p.1.db p'.1.db = .ok (.notFound 1) ∧ Expired 1000 p' 1 := by
  obtain ⟨p, p₁, p₂, hp, h₁, h₂, -, -, -, hcompleted, hpruned⟩ := RetriedTrace.exists_states
  have hp₁ : Recorded 1000 p₁ := h₁.reachableWith hp
  refine ⟨p₁, p₂, hp₁, h₂, hcompleted, hpruned, ?_⟩
  rcases getJob_final hp₁ .refl hcompleted rfl .refl h₂ 0 0 with hsame | ⟨-, hexpired⟩
  · rw [hpruned] at hsame
    cases hsame
  · exact hexpired

end BetterGraphileWorker.Completeness
