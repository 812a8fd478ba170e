-- SUMMARY: What an enqueue resolves with for every result of its statement, and when no job is lost in silence.
import Mathlib.Data.List.ReduceOption
import BetterGraphileWorker.Database.IdempotencyKeys
import BetterGraphileWorker.Worker.Guards
import BetterGraphileWorker.Worker.Unobserved

/-!
# Results of enqueues

A statement finds a job for each spec it was given, or none where Graphile returned no
row. Every path from the rows of the statement to the caller has a check of its own: the
adapter counts rows, `enqueueInTransaction` counts ids that are not null. `bgw_add_jobs`
returns a row for every spec, with a null id where there is no job, and the adapter
counts that row.
-/

namespace BetterGraphileWorker

/-! ## The adapter -/

/-- `addJob` of the enqueue adapter, for the ids of the rows that `add_job` returned. -/
def adaptAddJob (job : TracedJob) (rows : List (Option JobId)) : Except Thrown JobId :=
  match rows with
  | some id :: _ => .ok id
  | _ => .error (enqueueCount job.identifier 1 0)

/-- `addJobs`, for the ids that its statement returned. -/
def adaptAddJobs (jobs : List TracedJob) (rows : List JobId) : Except Thrown (List JobId) :=
  match jobs with
  | [] => .ok []
  | job :: _ =>
    if rows.length ≠ jobs.length then .error (enqueueCount job.identifier jobs.length rows.length)
    else .ok rows

def adaptAddIdempotentJobs (jobs : List TracedJob) (rows : List IdempotentJob) :
    Except Thrown (List IdempotentJob) :=
  match jobs with
  | [] => .ok []
  | job :: _ =>
    if rows.length ≠ jobs.length then .error (enqueueCount job.identifier jobs.length rows.length)
    else .ok rows

def PreparedStatement.jobs : PreparedStatement → List TracedJob
  | .skipped => []
  | .addJob job => [job]
  | .addJobs jobs _ | .addIdempotentJobs jobs => jobs

/-- The rows of a prepared statement, from the job it found for each spec. -/
def PreparedStatement.rows (found : List (Option JobId)) : PreparedStatement → List (Option JobId)
  | .addJobs _ _ => found.reduceOption.map some
  | _ => found

/-! ## Runs of an enqueue -/

/-- What becomes of one enqueue. -/
structure EnqueueRun where
  /-- `shouldSkipEnqueue()` returned true. -/
  skipped : Bool
  /-- The adapter called `bgw_add_jobs`. -/
  keyed : Bool
  /-- The job that the statement found for each spec, in input order. -/
  found : List (Option JobId)

def EnqueueRun.start : EnqueueRun := ⟨false, false, []⟩

/-- The requests whose answers decide what an enqueue resolves with. -/
def Request.enqueues : Request → Bool
  | .effect .shouldSkipEnqueue | .effect (.resolveMany ..) | .effect (.addJob _)
  | .effect (.addJobs ..) | .effect (.addIdempotentJobs _) | .effect (.queryRaw _) => true
  | _ => false

/-- The rows that a call of `bgw_add_jobs` returned when it committed. -/
def IdempotencyKeys.Returns (rows : List Returned) : Prop :=
  ∃ s k batch, system.Reachable s ∧ s.txs.get? k = some (.batch batch) ∧ batch.rest = [] ∧
    batch.adding = false ∧ batch.returned = rows

/-- A row as the adapter reads it. -/
def IdempotencyKeys.Returned.job (row : Returned) : IdempotentJob := ⟨row.id, row.deduplicated⟩

/-- How an enqueue is answered. A statement may fail, and find no job for any of its specs. -/
inductive EnqueueServes : (r : Request) → EnqueueRun → r.Reply → EnqueueRun → Prop where
  | skip {w : EnqueueRun} (answer : Except Thrown Bool) :
      EnqueueServes (.effect .shouldSkipEnqueue) w answer
        { w with skipped := answer.toOption.getD false }
  | resolved {name : String} {data : List (Option Json)} {options : Option JobOptions}
      {w : EnqueueRun} {answer : Except Thrown ResolvedJobs}
      (hspecs : ∀ jobs, answer = .ok jobs → jobs.specs.length = data.length) :
      EnqueueServes (.effect (.resolveMany name data options)) w answer w
  | failed {job : TracedJob} {w : EnqueueRun} (e : Thrown) :
      EnqueueServes (.effect (.addJob job)) w (.error e) w
  | added {job : TracedJob} {w : EnqueueRun} (found : Option JobId) (rows : List (Option JobId))
      (hrows : rows = [found] ∨ rows = [] ∧ found = none) :
      EnqueueServes (.effect (.addJob job)) w (adaptAddJob job rows) { w with found := [found] }
  | failedBatch {jobs : List TracedJob} {preserveRunAt : Bool} {w : EnqueueRun} (e : Thrown) :
      EnqueueServes (.effect (.addJobs jobs preserveRunAt)) w (.error e) w
  | addedBatch {jobs : List TracedJob} {preserveRunAt : Bool} {w : EnqueueRun}
      (found : List (Option JobId)) (hfound : found.length = jobs.length) :
      EnqueueServes (.effect (.addJobs jobs preserveRunAt)) w (adaptAddJobs jobs found.reduceOption)
        { w with found := found }
  | failedKeyed {jobs : List TracedJob} {w : EnqueueRun} (e : Thrown) :
      EnqueueServes (.effect (.addIdempotentJobs jobs)) w (.error e) w
  | addedKeyed {jobs : List TracedJob} {w : EnqueueRun} (rows : List IdempotencyKeys.Returned)
      (hrows : IdempotencyKeys.Returns rows) (hlength : rows.length = jobs.length) :
      EnqueueServes (.effect (.addIdempotentJobs jobs)) w
        (adaptAddIdempotentJobs jobs (rows.map (·.job)))
        { w with found := rows.map (·.id), keyed := true }
  | failedRaw {prepared : PreparedJob} {w : EnqueueRun} (e : Thrown) :
      EnqueueServes (.effect (.queryRaw prepared)) w (.error e) w
  | addedRaw {prepared : PreparedJob} {w : EnqueueRun} (found : List (Option JobId))
      (hfound : found.length = prepared.statement.jobs.length) :
      EnqueueServes (.effect (.queryRaw prepared)) w (.ok (prepared.statement.rows found))
        { w with found := found }
  | other {r : Request} {w : EnqueueRun} (answer : r.Reply) (h : r.enqueues = false) :
      EnqueueServes r w answer w

/-! ## Enqueues -/

/-- The ways to enqueue; the last two run the statement of `prepareJob` or `prepareJobs`. -/
inductive Enqueueing where
  | createJob (name : String) (data : Option Json) (options : Option JobOptions)
  | createJobs (name : String) (data : List (Option Json)) (options : Option JobOptions)
  | triggerCron (name : String) (options : Option JobOptions)
  | enqueueInTransaction (name : String) (data : Option Json) (options : Option JobOptions)
      (transactionalJobKeyMode : Option JobKeyMode) (required : Bool)
  | prepared (name : String) (data : Option Json) (options : Option JobOptions) (required : Bool)
  | preparedMany (name : String) (data : List (Option Json)) (options : Option JobOptions)
      (required : Bool)

namespace Enqueueing

/-- The ids that the enqueue resolves with; one of a single job may be null. -/
def run (runtime : Runtime) : Enqueueing → Code Unit (List (Option JobId))
  | createJob name data options => do
    let id ← enqueueOne runtime name data options false
    pure [id]
  | createJobs name data options => enqueueMany runtime name data options
  | triggerCron name options => do
    let id ← enqueueOne runtime name none options true
    pure [id]
  | enqueueInTransaction name data options mode required => do
    let id ← enqueueOneInTransaction runtime name data options mode required
    pure [id]
  | prepared name data options required => do
    let job ← prepareOne runtime name data options none
    let ids ← BetterGraphileWorker.enqueueInTransaction job required
    pure (ids.map some)
  | preparedMany name data options required => do
    let job ← prepareMany runtime name data options
    let ids ← BetterGraphileWorker.enqueueInTransaction job required
    pure (ids.map some)

/-- How many jobs the enqueue asks for. -/
def requested : Enqueueing → ℕ
  | createJobs _ data _ | preparedMany _ data _ _ => data.length
  | _ => 1

/-- What it resolves with when it was skipped. -/
def skips : Enqueueing → List (Option JobId)
  | createJobs .. | prepared .. | preparedMany .. => []
  | _ => [none]

/--
The enqueue throws, or resolves with the job of each spec in input order; with nothing only if it
was skipped.
-/
def Lossless (enqueue : Enqueueing) (r : Except Thrown (List (Option JobId))) (w : EnqueueRun) :
    Prop :=
  ∀ ids, r = .ok ids → (w.skipped = true ∧ ids = enqueue.skips) ∨
    (ids = w.found ∧ ids.length = enqueue.requested ∧ none ∉ ids)

end Enqueueing

/-- `bgw_add_jobs` found a job for every spec that the adapter gave it. -/
def EnqueueRun.Answered (w : EnqueueRun) : Prop := w.keyed = true → none ∉ w.found

private theorem map_some_reduceOption {α : Type} {l : List (Option α)}
    (h : l.reduceOption.length = l.length) : l.reduceOption.map some = l := by
  induction l with
  | nil => rfl
  | cons a l ih =>
    cases a with
    | none =>
      have hle := List.reduceOption_length_le l
      simp only [List.reduceOption_cons_of_none, List.length_cons] at h
      omega
    | some a =>
      simp only [List.reduceOption_cons_of_some, List.length_cons, Nat.add_right_cancel_iff] at h
      simp [List.reduceOption_cons_of_some, ih h]

private theorem length_withBatchKeyMode {jobs : List TracedJob} {preserveRunAt : Bool} :
    (withBatchKeyMode jobs preserveRunAt).length = jobs.length := by
  simp [withBatchKeyMode]

/-! ## What no answer decides -/

private def unenqueued : Hidden Request Request.Reply where
  requests r := r.enqueues = false
  answers _ _ := True

private theorem coversGuards_unenqueued : CoversGuards unenqueued where
  calls _ _ := rfl
  rejections _ _ _ _ := rfl

section
variable {σ α : Type} {s : σ} {w : EnqueueRun} {post : Except Thrown α → σ → EnqueueRun → Prop}

private theorem kept_of_enqueueServes (r : Request) (w : EnqueueRun) (answer : r.Reply)
    (w' : EnqueueRun) (h : unenqueued.requests r) (hserves : EnqueueServes r w answer w') :
    unenqueued.answers r answer ∧ w = w' := by
  cases hserves with
  | other => exact ⟨trivial, rfl⟩
  | _ => cases h

private theorem wp_of_unenqueued {x : Code σ α} (h : x.Unseen unenqueued)
    (hpost : ∀ a, post (.ok a) s w) : x.wp EnqueueServes post s w := by
  refine h.wp (P := Eq) (fun _ => rfl) (fun _ _ _ h h' => h.trans h') kept_of_enqueueServes ?_
  intro a _ hkept
  subst hkept
  exact hpost a

private theorem unseen_reportedEnqueue {metrics : Bool} {event : EnqueueFailEvent} :
    (observe (onEnqueueFail metrics event) : Code σ Unit).Unseen unenqueued := by
  apply coversGuards_unenqueued.observe
  unfold onEnqueueFail
  split
  · have hrecord : (record (addMetric (.enqueueFailed event.queue)) : Code σ Unit).Unseen
        unenqueued := CoversGuards.record (coversGuards_unenqueued.addMetric _)
    exact hrecord.watches.bind fun _ => watches_awaitObserver rfl
  · exact watches_awaitObserver rfl

/-- What the operation throws is reported and thrown again. -/
private theorem wp_observed {runtime : Runtime} {name : String} {operation : Code σ α}
    (h : operation.wp EnqueueServes post s w) :
    (observed runtime name operation).wp EnqueueServes post s w := by
  unfold observed
  rw [Routine.wp_tryCatch]
  refine Routine.wp_mono ?_ h
  intro r s w hr
  cases r with
  | ok a => exact hr
  | error e =>
    dsimp only
    rw [Routine.wp_bind]
    apply wp_of_unenqueued unseen_reportedEnqueue
    intro _
    exact hr

/-- A producer span may replace the exception by another one. -/
private theorem wp_producerSpan {fn : Code σ α}
    (h : fn.wp EnqueueServes (fun r s w => match r with
      | .ok a => post (.ok a) s w
      | .error _ => ∀ e, post (.error e) s w) s w) :
    (producerSpan fn).wp EnqueueServes post s w := by
  have hspan : ∀ call, (callSpan call : Code σ Unit).Unseen unenqueued :=
    coversGuards_unenqueued.callSpan
  simp only [producerSpan, withActiveSpan, Routine.wp_tryFinally, Routine.wp_tryCatch,
    Routine.wp_bind]
  refine Routine.wp_mono ?_ h
  intro r s w hr
  cases r with
  | ok a =>
    apply wp_of_unenqueued (hspan _)
    intro _
    dsimp only
    rw [Routine.wp_pure]
    apply wp_of_unenqueued (hspan _)
    intro _
    exact hr
  | error e =>
    dsimp only
    cases e.describe with
    | none =>
      dsimp only
      rw [Routine.wp_throw]
      apply wp_of_unenqueued (hspan _)
      intro _
      exact hr _
    | some described =>
      simp only [Routine.wp_bind]
      apply wp_of_unenqueued (hspan _)
      intro _
      apply wp_of_unenqueued (hspan _)
      intro _
      dsimp only
      rw [Routine.wp_throw]
      apply wp_of_unenqueued (hspan _)
      intro _
      exact hr e

private theorem unseen_trace {job : ResolvedJob} :
    (job.trace : Code σ TracedJob).Unseen unenqueued :=
  (unseen_perform rfl).bind fun _ => Routine.unseen_pure

private theorem wp_traceAll {post : Except Thrown (List TracedJob) → σ → EnqueueRun → Prop}
    (jobs : List ResolvedJob)
    (hpost : ∀ traced, traced.length = jobs.length → post (.ok traced) s w) :
    (traceAll jobs).wp EnqueueServes post s w := by
  induction jobs generalizing post with
  | nil => exact hpost [] rfl
  | cons job jobs ih =>
    simp only [traceAll, Routine.wp_bind, Routine.wp_pure]
    apply wp_of_unenqueued unseen_trace
    intro traced
    apply ih
    intro rest hrest
    apply hpost
    simp [hrest]

private theorem wp_enqueues {e : Effect} {post : Except Thrown e.Reply → σ → EnqueueRun → Prop}
    (hpost : ∀ answer w', EnqueueServes (.effect e) w answer w' → post (.ok answer) s w') :
    (perform e).wp EnqueueServes post s w :=
  hpost

/-- Code that runs unless the enqueue is skipped. -/
private theorem wp_unlessSkipped {x y : Code σ α} (hthrow : ∀ e, post (.error e) s .start)
    (hx : x.wp EnqueueServes post s ⟨true, false, []⟩) (hy : y.wp EnqueueServes post s .start) :
    (await (perform .shouldSkipEnqueue) >>= fun skip => if skip = true then x else y).wp
      EnqueueServes post s .start := by
  simp only [await, Routine.wp_bind]
  apply wp_enqueues
  intro answer w' hserves
  cases hserves with
  | skip =>
    cases answer with
    | error e => exact hthrow e
    | ok skip =>
      cases skip with
      | true => exact hx
      | false => exact hy
  | other _ h => cases h

private theorem wp_resolveMany {name : String} {data : List (Option Json)}
    {options : Option JobOptions} {f : ResolvedJobs → Code σ α}
    (hthrow : ∀ e, post (.error e) s w)
    (hf : ∀ jobs : ResolvedJobs, jobs.specs.length = data.length → (f jobs).wp EnqueueServes post s w) :
    (await (perform (.resolveMany name data options)) >>= f).wp EnqueueServes post s w := by
  simp only [await, Routine.wp_bind]
  apply wp_enqueues
  intro answer w' hserves
  cases hserves with
  | resolved hspecs =>
    cases answer with
    | error e => exact hthrow e
    | ok jobs => exact hf jobs (hspecs jobs rfl)
  | other _ h => cases h

private theorem wp_resolveOne {name : String} {data : Option Json} {options : Option JobOptions}
    {cron : Bool} {mode : Option JobKeyMode} {f : ResolvedJob → Code σ α}
    (hthrow : ∀ e, post (.error e) s w)
    (hf : ∀ job, (f job).wp EnqueueServes post s w) :
    (await (perform (.resolveOne name data options cron mode)) >>= f).wp EnqueueServes post s w := by
  simp only [await, Routine.wp_bind]
  have hunseen : (perform (.resolveOne name data options cron mode) : Code σ _).Unseen unenqueued :=
    unseen_perform rfl
  apply wp_of_unenqueued hunseen
  intro answer
  cases answer with
  | error e => exact hthrow e
  | ok job => exact hf job

/-! ## Statements -/

/-- `bgw_add_jobs` answers a job with a row, whose id may be null. -/
private theorem wp_addIdempotentJob {job : TracedJob}
    {post : Except Thrown (Option JobId) → σ → EnqueueRun → Prop}
    (hthrow : ∀ e, post (.error e) s w)
    (hpost : ∀ id, post (.ok id) s { w with found := [id], keyed := true }) :
    (addIdempotentJob job).wp EnqueueServes post s w := by
  simp only [addIdempotentJob, await, Routine.wp_bind]
  apply wp_enqueues
  intro answer w' hserves
  cases hserves with
  | failedKeyed e => exact hthrow e
  | addedKeyed rows _ hlength =>
    obtain ⟨row, rfl⟩ := List.length_eq_one_iff.mp hlength
    simp only [adaptAddIdempotentJobs, List.map_cons, List.map_nil, List.length_singleton, ne_eq,
      not_true_eq_false, if_false,
      Routine.wp_ofExcept, Routine.wp_bind]
    apply wp_of_unenqueued (coversGuards_unenqueued.callSpan _)
    intro _
    exact hpost row.id
  | other _ h => cases h

private theorem wp_addTracedJob {job : TracedJob}
    {post : Except Thrown JobId → σ → EnqueueRun → Prop}
    (hthrow : ∀ e w', w'.keyed = w.keyed → post (.error e) s w')
    (hpost : ∀ id, post (.ok id) s { w with found := [some id] }) :
    (addTracedJob job).wp EnqueueServes post s w := by
  simp only [addTracedJob, await, Routine.wp_bind]
  apply wp_enqueues
  intro answer w' hserves
  cases hserves with
  | failed e => exact hthrow e w rfl
  | added found rows hrows =>
    cases hrows with
    | inl h =>
      subst h
      cases found with
      | none => exact hthrow _ _ rfl
      | some id =>
        simp only [adaptAddJob, Routine.wp_ofExcept]
        apply wp_of_unenqueued (coversGuards_unenqueued.callSpan _)
        intro _
        exact hpost id
    | inr h =>
      obtain ⟨rfl, rfl⟩ := h
      exact hthrow _ _ rfl
  | other _ h => cases h

/-- The adapter returns an id for every job, or `bgw_add_jobs` a row for every job. -/
private theorem wp_addTracedJobs {jobs : List TracedJob} {preserveRunAt idempotent : Bool}
    {post : Except Thrown (List (Option JobId)) → σ → EnqueueRun → Prop}
    (hthrow : ∀ e w', w'.keyed = w.keyed → post (.error e) s w')
    (hids : ∀ ids, ids.length = jobs.length → none ∉ ids → post (.ok ids) s { w with found := ids })
    (hkeyed : ∀ ids, ids.length = jobs.length →
      post (.ok ids) s { w with found := ids, keyed := true })
    (hjobs : jobs ≠ []) :
    (addTracedJobs jobs preserveRunAt idempotent).wp EnqueueServes post s w := by
  obtain ⟨job, jobs, rfl⟩ := List.exists_cons_of_ne_nil hjobs
  simp only [addTracedJobs]
  split
  · simp only [await, Routine.wp_bind]
    apply wp_enqueues
    intro answer w' hserves
    cases hserves with
    | failedKeyed e => exact hthrow e w rfl
    | addedKeyed rows _ hlength =>
      rw [length_withBatchKeyMode] at hlength
      have hok : adaptAddIdempotentJobs (withBatchKeyMode (job :: jobs) preserveRunAt)
          (rows.map (·.job)) = .ok (rows.map (·.job)) := by
        simp only [withBatchKeyMode, List.map_cons, adaptAddIdempotentJobs]
        simp [hlength]
      rw [hok]
      simp only [Routine.wp_ofExcept]
      apply wp_of_unenqueued (coversGuards_unenqueued.callSpan _)
      intro _
      dsimp only
      have hids : (rows.map (·.job)).map (·.id) = rows.map (·.id) := by
        rw [List.map_map]
        rfl
      rw [Routine.wp_pure, hids]
      apply hkeyed
      rw [List.length_map, hlength]
    | other _ h => cases h
  · simp only [await, Routine.wp_bind]
    apply wp_enqueues
    intro answer w' hserves
    cases hserves with
    | failedBatch e => exact hthrow e w rfl
    | addedBatch found hfound =>
      simp only [adaptAddJobs]
      split
      · exact hthrow _ _ rfl
      · rename_i hlength
        have hall : found.reduceOption.map some = found := by
          apply map_some_reduceOption
          omega
        simp only [Routine.wp_ofExcept, Routine.wp_pure, hall]
        apply hids found hfound
        rw [← hall]
        simp
    | other _ h => cases h

/-! ## Enqueues of the client -/

/-- Attributes of a span, the second only if there are few ids. -/
private theorem wp_idsReported {call call' : SpanCall} {few : Prop} [Decidable few] {a : α}
    (h : post (.ok a) s w) :
    (callSpan call >>= fun _ => if few then callSpan call' >>= fun _ => pure a else pure a).wp
      EnqueueServes post s w := by
  rw [Routine.wp_bind]
  apply wp_of_unenqueued (coversGuards_unenqueued.callSpan _)
  intro _
  dsimp only
  split
  · rw [Routine.wp_bind]
    apply wp_of_unenqueued (coversGuards_unenqueued.callSpan _)
    intro _
    exact h
  · exact h

private theorem wp_enqueueOne {runtime : Runtime} {name : String} {data : Option Json}
    {options : Option JobOptions} {cron : Bool}
    {post : Except Thrown (Option JobId) → σ → EnqueueRun → Prop}
    (hthrow : ∀ e s w, w.keyed = false → post (.error e) s w)
    (hskip : post (.ok none) s ⟨true, false, []⟩)
    (hadded : ∀ id, post (.ok (some id)) s ⟨false, false, [some id]⟩)
    (hkeyed : ∀ id, post (.ok id) s ⟨false, true, [id]⟩) :
    (enqueueOne runtime name data options cron).wp EnqueueServes post s .start := by
  apply wp_observed
  apply wp_unlessSkipped
  · exact fun e => hthrow e _ _ rfl
  · exact hskip
  apply wp_resolveOne
  · exact fun e => hthrow e _ _ rfl
  intro job
  apply wp_producerSpan
  rw [Routine.wp_bind]
  apply wp_of_unenqueued (coversGuards_unenqueued.callSpan _)
  intro _
  dsimp only
  rw [Routine.wp_bind]
  apply wp_of_unenqueued unseen_trace
  intro traced
  dsimp only
  split
  · apply wp_addIdempotentJob
    · exact fun _ e => hthrow e _ _ rfl
    · exact hkeyed
  · rw [Routine.wp_bind]
    apply wp_addTracedJob
    · exact fun _ w' hw' e => hthrow e _ w' hw'
    · exact hadded

private theorem wp_enqueueMany {runtime : Runtime} {name : String} {data : List (Option Json)}
    {options : Option JobOptions}
    {post : Except Thrown (List (Option JobId)) → σ → EnqueueRun → Prop}
    (hthrow : ∀ e s w, w.keyed = false → post (.error e) s w)
    (hskip : post (.ok []) s ⟨true, false, []⟩)
    (hids : ∀ ids, ids.length = data.length → none ∉ ids → post (.ok ids) s ⟨false, false, ids⟩)
    (hkeyed : ∀ ids, ids.length = data.length → post (.ok ids) s ⟨false, true, ids⟩) :
    (enqueueMany runtime name data options).wp EnqueueServes post s .start := by
  apply wp_observed
  apply wp_unlessSkipped
  · exact fun e => hthrow e _ _ rfl
  · exact hskip
  apply wp_resolveMany
  · exact fun e => hthrow e _ _ rfl
  intro jobs hjobs
  apply wp_producerSpan
  rw [Routine.wp_bind]
  apply wp_of_unenqueued (coversGuards_unenqueued.callSpan _)
  intro _
  dsimp only
  split
  · rename_i hempty
    rw [List.isEmpty_iff] at hempty
    refine hids [] ?_ (by simp)
    rw [← hjobs, hempty, List.length_nil, List.length_nil]
  rename_i hempty
  rw [Routine.wp_bind]
  apply wp_traceAll
  intro traced htraced
  dsimp only
  rw [Routine.wp_bind]
  apply wp_addTracedJobs
  · exact fun _ w' hw' e => hthrow e _ w' hw'
  · intro ids hlength hnone
    apply wp_idsReported
    apply hids ids _ hnone
    omega
  · intro ids hlength
    apply wp_idsReported
    apply hkeyed
    omega
  · intro hnil
    apply hempty
    rw [List.isEmpty_iff, ← List.length_eq_zero_iff, ← htraced, hnil, List.length_nil]

/-! ## Enqueues in a transaction of the caller -/

/-- What `prepareOne` and `prepareMany` return for `n` jobs. -/
private def Prepares (n : ℕ) (prepared : PreparedJob) : EnqueueRun → Prop
  | ⟨skipped, keyed, found⟩ => keyed = false ∧ found = [] ∧
    prepared.count = prepared.statement.jobs.length ∧ prepared.count = if skipped then 0 else n

private theorem wp_prepareOne {runtime : Runtime} {name : String} {data : Option Json}
    {options : Option JobOptions} {mode : Option JobKeyMode}
    {post : Except Thrown PreparedJob → σ → EnqueueRun → Prop}
    (hthrow : ∀ e s w, w.keyed = false → post (.error e) s w)
    (hpost : ∀ prepared w, Prepares 1 prepared w → post (.ok prepared) s w) :
    (prepareOne runtime name data options mode).wp EnqueueServes post s .start := by
  apply wp_observed
  apply wp_unlessSkipped
  · exact fun e => hthrow e _ _ rfl
  · exact hpost _ _ ⟨rfl, rfl, rfl, rfl⟩
  apply wp_resolveOne
  · exact fun e => hthrow e _ _ rfl
  intro job
  apply wp_producerSpan
  rw [Routine.wp_bind]
  apply wp_of_unenqueued (coversGuards_unenqueued.callSpan _)
  intro _
  dsimp only
  rw [Routine.wp_bind]
  apply wp_of_unenqueued unseen_trace
  intro traced
  refine hpost _ _ ⟨rfl, rfl, ?_, rfl⟩
  dsimp only
  split <;> rfl

private theorem wp_prepareMany {runtime : Runtime} {name : String} {data : List (Option Json)}
    {options : Option JobOptions} {post : Except Thrown PreparedJob → σ → EnqueueRun → Prop}
    (hthrow : ∀ e s w, w.keyed = false → post (.error e) s w)
    (hpost : ∀ prepared w, Prepares data.length prepared w → post (.ok prepared) s w) :
    (prepareMany runtime name data options).wp EnqueueServes post s .start := by
  apply wp_observed
  apply wp_unlessSkipped
  · exact fun e => hthrow e _ _ rfl
  · exact hpost _ _ ⟨rfl, rfl, rfl, rfl⟩
  apply wp_resolveMany
  · exact fun e => hthrow e _ _ rfl
  intro jobs hjobs
  split
  · rename_i hempty
    rw [List.isEmpty_iff] at hempty
    refine hpost _ _ ⟨rfl, rfl, rfl, ?_⟩
    rw [← hjobs, hempty]
    rfl
  apply wp_producerSpan
  rw [Routine.wp_bind]
  apply wp_of_unenqueued (coversGuards_unenqueued.callSpan _)
  intro _
  dsimp only
  rw [Routine.wp_bind]
  apply wp_traceAll
  intro traced htraced
  refine hpost _ _ ⟨rfl, rfl, ?_, hjobs⟩
  dsimp only
  split
  · simp [PreparedStatement.jobs, length_withBatchKeyMode, htraced]
  · simp [PreparedStatement.jobs, htraced]

/-- The statement found a job for every spec if it returned as many ids as specs. -/
private theorem rows_eq_map_some {statement : PreparedStatement} {found : List (Option JobId)}
    (hfound : found.length = statement.jobs.length)
    (hids : ((statement.rows found).filterMap id).length = statement.jobs.length) :
    ((statement.rows found).filterMap id).map some = found := by
  have hrows : (statement.rows found).filterMap id = found.reduceOption := by
    cases statement with
    | addJobs jobs preserveRunAt => simp [PreparedStatement.rows, List.filterMap_map]
    | _ => rfl
  rw [hrows] at hids ⊢
  apply map_some_reduceOption
  rw [hids, hfound]

private theorem wp_enqueueInTransaction {prepared : PreparedJob} {required : Bool} {n : ℕ}
    {post : Except Thrown (List JobId) → σ → EnqueueRun → Prop} (hprepared : Prepares n prepared w)
    (hthrow : ∀ e s w, w.keyed = false → post (.error e) s w)
    (hskip : post (.ok []) s ⟨true, false, []⟩)
    (hids : ∀ ids, ids.length = n → post (.ok ids) s ⟨false, false, ids.map some⟩) :
    (enqueueInTransaction prepared required).wp EnqueueServes post s w := by
  obtain ⟨skipped, keyed, found⟩ := w
  obtain ⟨rfl, rfl, hjobs, hcount⟩ := hprepared
  unfold enqueueInTransaction
  split
  · exact hthrow _ _ _ rfl
  split
  · rename_i hzero
    cases skipped with
    | true => exact hskip
    | false => exact hids [] (by simpa [hzero] using hcount)
  rename_i hcount'
  cases skipped with
  | true => exact absurd hcount hcount'
  | false =>
    simp only [await, Routine.wp_bind]
    apply wp_enqueues
    intro answer w' hserves
    cases hserves with
    | failedRaw e => exact hthrow _ _ _ rfl
    | addedRaw found hfound =>
      simp only [Routine.wp_ofExcept]
      split
      · exact hthrow _ _ _ rfl
      · rename_i hlength
        rw [not_not] at hlength
        have hall := rows_eq_map_some hfound (hlength.trans hjobs)
        have h := hids ((prepared.statement.rows found).filterMap id) (hlength.trans hcount)
        rw [hall] at h
        exact h
    | other _ h => cases h

end

/-! ## Lossless enqueues -/

/-- An enqueue settles with what the database found, and is lossless where that is all jobs. -/
private theorem Enqueueing.wp_run {enqueue : Enqueueing} {runtime : Runtime} :
    (enqueue.run runtime).wp EnqueueServes (fun r _ w => enqueue.Lossless r w ↔ w.Answered) ()
      .start := by
  have hthrow : ∀ (e : Thrown) (s : Unit) (w : EnqueueRun), w.keyed = false →
      (enqueue.Lossless (.error e) w ↔ w.Answered) := by
    intro e _ w hkeyed
    constructor
    · intro _ h
      simp [hkeyed] at h
    · intro _ ids h
      cases h
  have hskip : enqueue.Lossless (.ok enqueue.skips) ⟨true, false, []⟩ ↔
      EnqueueRun.Answered ⟨true, false, []⟩ := by
    constructor
    · intro _ h
      cases h
    · intro _ ids h
      cases h
      exact .inl ⟨rfl, rfl⟩
  have hfound : ∀ keyed ids, ids.length = enqueue.requested → (keyed = false → none ∉ ids) →
      (enqueue.Lossless (.ok ids) ⟨false, keyed, ids⟩ ↔ EnqueueRun.Answered ⟨false, keyed, ids⟩) := by
    intro keyed ids hlength hnone
    constructor
    · intro h _
      cases h ids rfl with
      | inl h => cases h.1
      | inr h => exact h.2.2
    · intro h ids' heq
      cases heq
      refine .inr ⟨rfl, hlength, ?_⟩
      cases keyed with
      | true => exact h rfl
      | false => exact hnone rfl
  cases enqueue with
  | createJob name data options =>
    simp only [run, Routine.wp_bind]
    apply wp_enqueueOne
    · exact hthrow
    · exact hskip
    · exact fun id => hfound false [some id] rfl (by simp)
    · exact fun id => hfound true [id] rfl (by simp)
  | triggerCron name options =>
    simp only [run, Routine.wp_bind]
    apply wp_enqueueOne
    · exact hthrow
    · exact hskip
    · exact fun id => hfound false [some id] rfl (by simp)
    · exact fun id => hfound true [id] rfl (by simp)
  | createJobs name data options =>
    apply wp_enqueueMany
    · exact hthrow
    · exact hskip
    · exact fun ids hlength hnone => hfound false ids hlength fun _ => hnone
    · exact fun ids hlength => hfound true ids hlength (by simp)
  | enqueueInTransaction name data options mode required =>
    simp only [run, enqueueOneInTransaction, Routine.wp_bind]
    apply wp_prepareOne
    · exact hthrow
    intro prepared w hprepared
    apply wp_enqueueInTransaction hprepared
    · exact hthrow
    · exact hskip
    · intro ids hlength
      obtain ⟨id, rfl⟩ := List.length_eq_one_iff.mp hlength
      exact hfound false [some id] rfl (by simp)
  | prepared name data options required =>
    simp only [run, Routine.wp_bind]
    apply wp_prepareOne
    · exact hthrow
    intro prepared w hprepared
    apply wp_enqueueInTransaction hprepared
    · exact hthrow
    · exact hskip
    · intro ids hlength
      refine hfound false (ids.map some) ?_ (by simp)
      rw [List.length_map]
      exact hlength
  | preparedMany name data options required =>
    simp only [run, Routine.wp_bind]
    apply wp_prepareMany
    · exact hthrow
    intro prepared w hprepared
    apply wp_enqueueInTransaction hprepared
    · exact hthrow
    · exact hskip
    · intro ids hlength
      refine hfound false (ids.map some) ?_ (by simp)
      rw [List.length_map]
      exact hlength

/-! ## Keys without a job -/

namespace IdempotencyKeys

/-- The rows that a call has answered as duplicates have jobs. -/
private def Answers (s : State) : Prop :=
  ∀ k batch, s.txs.get? k = some (.batch batch) → ∀ row ∈ batch.returned,
    row.deduplicated = true → row.id.isSome = true

private theorem Answers.setTx {s : State} {k : ℕ} {tx : Tx} (h : Answers s)
    (htx : ∀ batch, tx = .batch batch → ∀ row ∈ batch.returned,
      row.deduplicated = true → row.id.isSome = true) : Answers (s.setTx k tx) := by
  intro k' batch hget
  rw [State.setTx, Table.get?_insert] at hget
  split at hget
  · exact htx batch (Option.some.inj hget)
  · exact h k' batch hget

private theorem answers_exec {s s' : State} {e : Event} (h : Answers s) (hstep : Step s e s') :
    Answers s' := by
  have herase : ∀ k rows, Answers { s with rows := rows, txs := s.txs.erase k } := by
    intro k rows k' batch hget
    rw [Table.get?_erase] at hget
    split at hget
    · cases hget
    · exact h k' batch hget
  cases hstep with
  | begin =>
    apply h.setTx
    intro batch heq row hrow
    cases heq
    cases hrow
  | @claim k batch item rest key ttl hget =>
    apply h.setTx
    intro batch' heq row hrow hdeduplicated
    cases heq
    have hrows := h k batch hget
    simp only [Batch.claim] at hrow
    split at hrow
    · rw [List.mem_append, List.mem_singleton] at hrow
      cases hrow with
      | inl hmem => exact hrows row hmem hdeduplicated
      | inr heq =>
        rw [heq]
        rfl
    · exact hrows row hrow hdeduplicated
  | @addJob k id batch item rest hget =>
    apply h.setTx
    intro batch' heq row hrow hdeduplicated
    cases heq
    simp only [Batch.addJob, List.mem_append, List.mem_singleton] at hrow
    cases hrow with
    | inl hmem => exact h k batch hget row hmem hdeduplicated
    | inr heq =>
      rw [heq] at hdeduplicated
      cases hdeduplicated
  | beginPrune => exact h.setTx (by rintro _ ⟨⟩)
  | lock => exact h.setTx (by rintro _ ⟨⟩)
  | skip => exact h.setTx (by rintro _ ⟨⟩)
  | commitBatch => exact herase _ _
  | commitPrune => exact herase _ _
  | rollback => exact herase _ _

private theorem answers_reachable {s : State} (h : system.Reachable s) : Answers s := by
  apply h.invariant
  · intro s hinit k batch hget
    cases hinit
    cases hget
  · intro s e s' _ ih _ hexec
    exact answers_exec ih (step_of_exec hexec)

/-- A claim of a key that has no job goes on with `add_job`. -/
private theorem adding_of_claim {batch : Batch} {key : Key} {ttl : ℤ} {found : Option KeyRow}
    (h : ∀ row, found = some row → row.jobId = none) :
    (batch.claim key (claimed batch.now ttl found)).adding = true := by
  have hnone : (claimed batch.now ttl found).jobId = none := by
    unfold claimed
    split
    · split
      · exact h _ rfl
      · rfl
    · rfl
  simp [Batch.claim, hnone]

end IdempotencyKeys

/--
An enqueue throws or resolves with a job for every spec if and only if `bgw_add_jobs` found a job
for every spec that it was given. A key without a job id makes no later call a duplicate.
-/
theorem enqueue_lossless_iff {enqueue : Enqueueing} {runtime : Runtime}
    {r : Except Thrown (List (Option JobId))} {w : EnqueueRun}
    (hruns : (enqueue.run runtime).Runs EnqueueServes () .start r () w) :
    (enqueue.Lossless r w ↔ w.Answered) ∧
    (∀ (rows : List IdempotencyKeys.Returned), IdempotencyKeys.Returns rows →
      ∀ row ∈ rows, row.deduplicated = true → row.id.isSome = true) ∧
    ∀ (batch : IdempotencyKeys.Batch) (key : IdempotencyKeys.Key) (ttl : ℤ)
      (found : Option IdempotencyKeys.KeyRow), (∀ row, found = some row → row.jobId = none) →
        (batch.claim key (IdempotencyKeys.claimed batch.now ttl found)).adding = true := by
  refine ⟨?_, ?_, ?_⟩
  · exact Routine.wp_of_runs Enqueueing.wp_run hruns
  · intro rows hreturns row hrow
    obtain ⟨s, k, batch, hreach, hget, -, -, rfl⟩ := hreturns
    exact IdempotencyKeys.answers_reachable hreach k batch hget row hrow
  · intro batch key ttl found hnone
    exact IdempotencyKeys.adding_of_claim hnone

namespace EnqueueTrace

def spec : EnqueueSpec := ⟨25, none, none, none, none, some "report", none, some "monday", some 60000⟩

def item : IdempotencyKeys.Item where
  spec := ⟨"report", .null, none, none, none, some "report", none, none, .replace⟩
  idempotency := some ("monday", 60000)

/-- A call with a new key, to which `add_job` returns `id`. -/
def first (id : Option JobId) : List IdempotencyKeys.Event := [.begin 0 [item], .claim 0, .addJob 0 id]

/-- A second call with the key. -/
def second : List IdempotencyKeys.Event := first (some 7) ++ [.commit 0, .begin 1 [item], .claim 1]

/-- The call is done and returns these rows. -/
def returned (k : ℕ) (rows : List IdempotencyKeys.Returned) (s : IdempotencyKeys.State) : Bool :=
  match s.txs.get? k with
  | some (.batch ⟨_, _, [], false, returned⟩) => returned = rows
  | _ => false

/-- The answers to an enqueue whose statement returns these rows. -/
def answer (rows : List IdempotencyKeys.Returned) :
    (r : Request) → EnqueueRun → Option (r.Reply × EnqueueRun)
  | .observer _, w => some (.nothing, w)
  | .effect .shouldSkipEnqueue, w => some (.ok false, { w with skipped := false })
  | .effect (.resolveOne name payload _ _ _), w => some (.ok ⟨name, payload, spec⟩, w)
  | .effect .traceparent, w => some (none, w)
  | .effect (.addIdempotentJobs jobs), w =>
    if rows.length = jobs.length then
      some (adaptAddIdempotentJobs jobs (rows.map (·.job)),
        { w with found := rows.map (·.id), keyed := true })
    else none
  | _, _ => none

end EnqueueTrace

private theorem served_enqueueAnswer {rows : List IdempotencyKeys.Returned}
    (hrows : IdempotencyKeys.Returns rows) (r : Request) (w : EnqueueRun) (o : r.Reply)
    (w' : EnqueueRun) (h : EnqueueTrace.answer rows r w = some (o, w')) :
    EnqueueServes r w o w' := by
  unfold EnqueueTrace.answer at h
  split at h
  · cases h
    exact .other _ rfl
  · cases h
    exact .skip (.ok false)
  · cases h
    exact .other _ rfl
  · cases h
    exact .other _ rfl
  · split at h
    · cases h
      rename_i hlength
      exact .addedKeyed rows hrows hlength
    · cases h
  · cases h

private theorem returns_of_run {events : List IdempotencyKeys.Event} {k : ℕ}
    {rows : List IdempotencyKeys.Returned}
    (h : (IdempotencyKeys.system.run ⟨∅, ∅, 0⟩ events).any (EnqueueTrace.returned k rows) = true) :
    IdempotencyKeys.Returns rows := by
  have hinit : IdempotencyKeys.system.Init ⟨∅, ∅, 0⟩ := rfl
  obtain ⟨s, hreach, hreturned⟩ := IdempotencyKeys.system.exists_reachable_of_run _ _ hinit h
  simp only [EnqueueTrace.returned] at hreturned
  split at hreturned
  · rename_i now written returned hget
    exact ⟨s, k, _, hreach, hget, rfl, rfl, of_decide_eq_true hreturned⟩
  · cases hreturned

/-- A keyed job that was added, a duplicate of it, and a key that has no job. -/
theorem enqueue_lossless_added :
    (∃ w, w.skipped = false ∧
      Enqueueing.Lossless (.createJob "report" none none) (.ok [some 7]) w) ∧
    (⟨some 7, true⟩ : IdempotencyKeys.Returned).id.isSome = true ∧
    (IdempotencyKeys.Batch.claim ⟨0, ∅, [], false, []⟩ ("report", "monday")
      (IdempotencyKeys.claimed 0 60000 (some ⟨none, 1⟩))).adding = true := by
  let enqueue : Enqueueing := .createJob "report" none none
  have hrun : (IdempotencyKeys.system.run ⟨∅, ∅, 0⟩ (EnqueueTrace.first (some 7))).any
      (EnqueueTrace.returned 0 [⟨some 7, false⟩]) = true := by decide
  obtain ⟨⟨r, s⟩, w, hruns, htest⟩ := Program.exists_runs_of_play
    (served_enqueueAnswer (returns_of_run hrun)) (p := enqueue.run ⟨false, false, false⟩ ())
    (w := .start) (fun r w => r.1.toOption = some [some 7] && !w.skipped && w.found = [some 7])
    (by decide)
  obtain ⟨hiff, hduplicates, hclaims⟩ := enqueue_lossless_iff hruns
  refine ⟨?_, ?_, ?_⟩
  · simp only [Bool.and_eq_true, Bool.not_eq_true', decide_eq_true_eq] at htest
    obtain ⟨⟨hids, hskipped⟩, hfound⟩ := htest
    cases r with
    | error e => cases hids
    | ok ids =>
      obtain rfl : ids = [some 7] := Option.some.inj hids
      refine ⟨w, hskipped, hiff.mpr ?_⟩
      intro _
      simp [hfound]
  · have hrun : (IdempotencyKeys.system.run ⟨∅, ∅, 0⟩ EnqueueTrace.second).any
        (EnqueueTrace.returned 1 [⟨some 7, true⟩]) = true := by decide
    have hreturns := returns_of_run hrun
    exact hduplicates _ hreturns _ (by simp) rfl
  · apply hclaims ⟨0, ∅, [], false, []⟩
    intro row h
    cases h
    rfl

/-- `add_job` returned no row: the call resolves with null, and was not skipped. -/
theorem enqueue_lost :
    ¬∀ (enqueue : Enqueueing) (runtime : Runtime) (r : Except Thrown (List (Option JobId)))
      (w : EnqueueRun), (enqueue.run runtime).Runs EnqueueServes () .start r () w →
        enqueue.Lossless r w := by
  intro hclaim
  let enqueue : Enqueueing := .createJob "report" none none
  have hrun : (IdempotencyKeys.system.run ⟨∅, ∅, 0⟩ (EnqueueTrace.first none)).any
      (EnqueueTrace.returned 0 [⟨none, false⟩]) = true := by decide
  obtain ⟨⟨r, s⟩, w, hruns, htest⟩ := Program.exists_runs_of_play
    (served_enqueueAnswer (returns_of_run hrun)) (p := enqueue.run ⟨false, false, false⟩ ())
    (w := .start) (fun r w => r.1.toOption = some [none] && !w.skipped) (by decide)
  have hlossless := hclaim enqueue ⟨false, false, false⟩ r w hruns
  simp only [Bool.and_eq_true, Bool.not_eq_true', decide_eq_true_eq] at htest
  cases r with
  | error e => cases htest.1
  | ok ids =>
    obtain rfl : ids = [none] := Option.some.inj htest.1
    cases hlossless [none] rfl with
    | inl h => cases htest.2.symm.trans h.1
    | inr h => exact h.2.2 (by simp)

end BetterGraphileWorker
