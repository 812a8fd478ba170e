-- SUMMARY: The world of one attempt: how its requests are answered, and the code that leaves its fate alone.
import BetterGraphileWorker.Worker.ExecuteTask
import BetterGraphileWorker.Worker.Guards

/-!
# The world of an attempt

The database an attempt works on, beside any other transactions that leave it its lock,
and what it has said about its fate: to its hooks, in its event, in the statements that
settle it. Everything else it calls says nothing about that, and guarded observers
cannot make it throw. What the others do to the attempts of the row is on record.
-/

namespace BetterGraphileWorker

/-! ## The world of an attempt -/

/-- The job cannot run again. -/
def Db.dead (db : Db) (id : JobId) : Bool := !(db.jobs.get? id).any Job.live

/-- The database, and what an attempt has told its observers and the database. -/
structure TaskWorld where
  db : Db
  /-- How often `onPermanentFailure` was called. -/
  hooks : ℕ
  /-- The events that `onJobFinished` got. -/
  finished : List JobFinishedEvent
  /-- The settling statements that committed on the row. -/
  settled : List Settle
  /-- A statement that settles the failure did not commit. -/
  dropped : Bool
  /--
  Whether the job was dead after other transactions last changed that; none if they left it
  alone since the claim, or since the attempt exhausted or deleted its row.
  -/
  changed : Option Bool

/-- The world when an attempt starts. -/
def TaskWorld.start (db : Db) : TaskWorld where
  db := db
  hooks := 0
  finished := []
  settled := []
  dropped := false
  changed := none

/-- The claim spent the last attempt. -/
def HelpersJob.lastAttempt (helpers : HelpersJob) : Bool := helpers.maxAttempts ≤ helpers.attempts

/-- Any other transactions that leave the attempt its lock. -/
def LeavesLock (helpers : HelpersJob) (db db' : Db) : Prop :=
  (db.owned helpers).isSome → (db'.owned helpers).isSome

/-- The statement settles a completed run. -/
def Settle.completes (settle : Settle) : Bool :=
  (match settle.outcome with | some .completed => true | _ => false) ||
    match settle.report with | some (.ok _) => true | _ => false

namespace TaskWorld

variable (w : TaskWorld)

def observe : ObserverCall → TaskWorld
  | .onPermanentFailure _ => { w with hooks := w.hooks + 1 }
  | .onJobFinished event => { w with finished := w.finished ++ [event] }
  | _ => w

/-- Other transactions make `db` of the database. -/
def others (helpers : HelpersJob) (db : Db) : TaskWorld :=
  let dead := db.dead helpers.id
  { w with db, changed := if dead = w.db.dead helpers.id then w.changed else some dead }

def commit (settle : Settle) (db : Db) : TaskWorld :=
  { w with
    db
    settled := w.settled ++ [settle]
    changed := if settle.row = .keep then w.changed else none }

def drop (settle : Settle) : TaskWorld :=
  if settle.completes then w else { w with dropped := true }

/-- A failed outcome was recorded. -/
def recorded : Bool :=
  w.settled.any fun settle => match settle.outcome with
    | some (.failed _) => true
    | _ => false

/-- The failure was reported to waiting parents. -/
def reported : Bool :=
  w.settled.any fun settle => match settle.report with
    | some (.failed _ _) => true
    | _ => false

/-- A statement exhausted or deleted the row. -/
def ended : Bool := w.settled.any fun settle => settle.row ≠ .keep

/-- The row is as the claim, the attempt and the others on record left it. -/
def Traced (helpers : HelpersJob) : Prop :=
  w.db.dead helpers.id = w.changed.getD (helpers.lastAttempt || w.ended)

end TaskWorld

/--
How the database answers `settleLockedJob`. Its errors are `Error`s. The reply to a
commit can get lost, but not to a completion: that would take the lock with the row.
-/
inductive Settles (helpers : HelpersJob) (settle : Settle) (w : TaskWorld) :
    Except Thrown Bool → TaskWorld → Prop where
  | committed (now : Time) (visible : WaitKey → Bool) (db : Db)
      (h : settleJob now helpers settle visible w.db = (db, true)) :
      Settles helpers settle w (.ok true) (w.commit settle db)
  | notOwned (h : w.db.owned helpers = none) : Settles helpers settle w (.ok false) w
  | failed (error : Thrown) (htext : error.text.isSome) :
      Settles helpers settle w (.error error) (w.drop settle)
  | unanswered (error : Thrown) (htext : error.text.isSome) (hcompletes : settle.completes = false)
      (now : Time) (visible : WaitKey → Bool) (db : Db)
      (h : settleJob now helpers settle visible w.db = (db, true)) :
      Settles helpers settle w (.error error) (w.commit settle db)

/-- How the database answers `scheduleRetry`. -/
inductive Schedules (helpers : HelpersJob) (runAt : Time) (w : TaskWorld) :
    Except Thrown Time → TaskWorld → Prop where
  | scheduled (now : Time) (db : Db) (t : Time)
      (h : scheduleRetry now helpers runAt w.db = .ok (db, t)) :
      Schedules helpers runAt w (.ok t) { w with db }
  | failed (error : Thrown) : Schedules helpers runAt w (.error error) w

/-- What a request of the attempt does. Progress writes are among the other transactions. -/
def Answers (helpers : HelpersJob) : (r : Request) → TaskWorld → r.Reply → TaskWorld → Prop
  | .observer call, w, _, w' => w' = w.observe call
  | .effect (.settleLockedJob settle), w, answer, w' => Settles helpers settle w answer w'
  | .effect (.scheduleRetry runAt), w, answer, w' => Schedules helpers runAt w answer w'
  | .effect (.closeProgress _), w, answer, w' =>
      (∀ error : Thrown, answer = Except.error error → error.text.isSome) ∧ w' = w
  | .effect _, w, _, w' => w' = w

/-- A request is answered after any other transactions. -/
def served (helpers : HelpersJob) (r : Request) (w : TaskWorld) (answer : r.Reply)
    (w' : TaskWorld) : Prop :=
  ∃ db, LeavesLock helpers w.db db ∧ Answers helpers r (w.others helpers db) answer w'

/-! ## Code that leaves the verdict alone -/

variable {helpers : HelpersJob} {w w' w'' : TaskWorld} {σ α β : Type}

/-- From `w` to `w'` the attempt kept its lock and said nothing about its fate. -/
structure Passes (helpers : HelpersJob) (w w' : TaskWorld) : Prop where
  lock : LeavesLock helpers w.db w'.db
  hooks : w'.hooks = w.hooks
  finished : w'.finished = w.finished
  settled : w'.settled = w.settled
  dropped : w'.dropped = w.dropped
  traced : w.Traced helpers → w'.Traced helpers

theorem Passes.refl : Passes helpers w w := ⟨id, rfl, rfl, rfl, rfl, id⟩

theorem Passes.trans (h : Passes helpers w w') (h' : Passes helpers w' w'') :
    Passes helpers w w'' where
  lock := h'.lock ∘ h.lock
  hooks := h'.hooks.trans h.hooks
  finished := h'.finished.trans h.finished
  settled := h'.settled.trans h.settled
  dropped := h'.dropped.trans h.dropped
  traced := h'.traced ∘ h.traced

/-- What other transactions do to the row is on record. -/
theorem TaskWorld.Traced.others {db : Db} (h : w.Traced helpers) :
    (w.others helpers db).Traced helpers := by
  by_cases hsame : db.dead helpers.id = w.db.dead helpers.id
  · simpa [TaskWorld.Traced, TaskWorld.others, TaskWorld.ended, hsame] using h
  · simp [TaskWorld.Traced, TaskWorld.others, hsame]

theorem Passes.others {db : Db} (h : LeavesLock helpers w.db db) :
    Passes helpers w (w.others helpers db) :=
  ⟨h, rfl, rfl, rfl, rfl, TaskWorld.Traced.others⟩

/-- Requests that say nothing about the fate of the attempt. -/
def Request.plain : Request → Bool
  | .observer (.onPermanentFailure _) | .observer (.onJobFinished _) => false
  | .effect (.settleLockedJob _) | .effect (.scheduleRetry _) => false
  | _ => true

/-- The plain requests, hidden from the verdict; progress writes fail with errors that have a text. -/
def plainRequests : Hidden Request Request.Reply where
  requests r := r.plain = true
  answers
    | .effect (.closeProgress _), answer =>
        ∀ error : Thrown, answer = Except.error error → error.text.isSome
    | _, _ => True

theorem coversGuards_plainRequests : CoversGuards plainRequests where
  calls call h := by cases call <;> first | rfl | cases h
  rejections _ _ _ _ := rfl

theorem passes_of_served (r : Request) (w : TaskWorld) (answer : r.Reply) (w' : TaskWorld)
    (hplain : plainRequests.requests r) (hserved : served helpers r w answer w') :
    plainRequests.answers r answer ∧ Passes helpers w w' := by
  obtain ⟨db, hlock, h⟩ := hserved
  have hsame : plainRequests.answers r answer ∧ w' = w.others helpers db := by
    unfold Answers at h
    split at h
    · rename_i call _
      cases call <;> first | exact ⟨trivial, h⟩ | cases hplain
    · cases hplain
    · cases hplain
    · exact h
    · rename_i e _ _ _ hprogress
      cases e <;> first | exact ⟨trivial, h⟩ | exact (hprogress _ _ HEq.rfl rfl).elim
  obtain ⟨hanswer, rfl⟩ := hsame
  exact ⟨hanswer, .others hlock⟩

section
variable {x : Code σ α} {s : σ}

theorem wp_of_unseen {post : Except Thrown α → σ → TaskWorld → Prop}
    (h : x.Unseen plainRequests) (hpost : ∀ a w', Passes helpers w w' → post (.ok a) s w') :
    x.wp (served helpers) post s w :=
  h.wp (fun _ => .refl) (fun _ _ _ => .trans) passes_of_served hpost

theorem wp_of_watches {post : Except Thrown α → σ → TaskWorld → Prop}
    (h : x.Watches plainRequests) (hpost : ∀ r w', Passes helpers w w' → post r s w') :
    x.wp (served helpers) post s w :=
  h.wp (fun _ => .refl) (fun _ _ _ => .trans) passes_of_served hpost

theorem wp_callSpan {call : SpanCall} {post : Except Thrown Unit → σ → TaskWorld → Prop}
    (hpost : ∀ a w', Passes helpers w w' → post (.ok a) s w') :
    (callSpan call).wp (served helpers) post s w :=
  wp_of_unseen (coversGuards_plainRequests.callSpan call) hpost

theorem wp_plain {e : Effect} {post : Except Thrown e.Reply → σ → TaskWorld → Prop}
    (h : (Request.effect e).plain = true)
    (hpost : ∀ answer w', Passes helpers w w' → post (.ok answer) s w') :
    (perform e).wp (served helpers) post s w :=
  wp_of_unseen (unseen_perform h) hpost

end

/-! ### Hooks -/

theorem Passes.observe (h : Passes helpers w w') (call : ObserverCall) :
    Passes helpers (w.observe call) (w'.observe call) := by
  cases call <;> first
    | exact ⟨h.lock, h.hooks, h.finished, h.settled, h.dropped, h.traced⟩
    | exact ⟨h.lock, congrArg (· + 1) h.hooks, h.finished, h.settled, h.dropped, h.traced⟩
    | exact ⟨h.lock, h.hooks, congrArg (· ++ [_]) h.finished, h.settled, h.dropped, h.traced⟩

/-- A hook sees its event, and `observe` returns whatever it does. -/
theorem wp_observe {call : ObserverCall} {s : σ} {post : Except Thrown Unit → σ → TaskWorld → Prop}
    (hpost : ∀ w', Passes helpers (w.observe call) w' → post (.ok ()) s w') :
    (observe (awaitObserver call)).wp (served helpers) post s w := by
  simp only [BetterGraphileWorker.observe, awaitObserver, callObserver, Routine.wp_tryCatch,
    Routine.wp_bind]
  rintro reaction w' ⟨db, hlock, rfl⟩
  have hpasses := (Passes.others hlock).observe call
  have hreport : ∀ e, (report e).wp (served helpers) post s ((w.others helpers db).observe call) := by
    intro e
    apply wp_of_unseen (coversGuards_plainRequests.report e)
    intro _ w' hpasses'
    exact hpost w' (hpasses.trans hpasses')
  cases reaction with
  | rejected e => exact hreport e
  | threw e => exact hreport e
  | _ => exact hpost _ hpasses

theorem wp_observe_onJobFinished {metrics : Bool} {event : JobFinishedEvent} {s : σ}
    {post : Except Thrown Unit → σ → TaskWorld → Prop}
    (hpost : ∀ w', Passes helpers (w.observe (.onJobFinished event)) w' → post (.ok ()) s w') :
    (observe (onJobFinished metrics event)).wp (served helpers) post s w := by
  have hhook : ∀ w₁, Passes helpers w w₁ →
      (observe (awaitObserver (.onJobFinished event))).wp (served helpers) post s w₁ := by
    intro w₁ hpasses
    apply wp_observe
    intro w' hpasses'
    exact hpost w' ((hpasses.observe _).trans hpasses')
  simp only [BetterGraphileWorker.observe, Routine.wp_tryCatch] at hhook
  simp only [BetterGraphileWorker.observe, onJobFinished, Routine.wp_tryCatch]
  cases metrics with
  | false => exact hhook w .refl
  | true =>
    simp only [if_true, Routine.wp_bind]
    apply wp_of_unseen (coversGuards_plainRequests.recordJobFinished event)
    intro _ w₁ hpasses
    exact hhook w₁ hpasses

end BetterGraphileWorker
