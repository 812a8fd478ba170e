-- SUMMARY: Everything one step can do to an attempt, to the open transaction on a row, and to the wait tables.
import BetterGraphileWorker.System.Rows

/-!
# Attempts, transactions and wait tables

The counterparts of `RowChange` for the rest of the state.
-/

namespace BetterGraphileWorker

/-- What a step can do to the attempt numbered `k`. -/
inductive AttemptChange (s : State) (e : Event) (r : Reply) (k : ℕ) :
    Option Attempt → Option Attempt → Prop where
  | same (o : Option Attempt) : AttemptChange s e r k o o
  | started (o : Option Attempt) {now : Time} {pool : PoolId} {id : JobId} {jobOutcomes : Bool}
      {job : Job} {progress : Option Json} (he : e = .claim now pool id jobOutcomes)
      (hk : k = s.nextAttempt) (hrow : s.db.jobs.get? id = some job)
      (hclaim : claimable now s.db job = true) :
      AttemptChange s e r k o (some {
        job := .ofJob id (job.lockFor ⟨pool, now⟩) ⟨pool, now⟩
        lock := ⟨pool, now⟩
        jobOutcomes
        cache := Payload.extractStepCache job.payload
        progress
        continueCalled := false
        ended := none })
  | checkpointed (a : Attempt) {stepId : String} {output : Option Json} {job : Job}
      (he : e = .checkpoint k stepId output true) (hr : r = .done) (hown : s.db.owned a.job = some job)
      (hfree : s.txs.get? a.job.id = none) (hcache : a.cache stepId = none)
      (hcall : State.callable a stepId = true) :
      AttemptChange s e r k (some a)
        (some { a with cache := Function.update a.cache stepId (some (entry output)) })
  | progressed (a : Attempt) {value : Json} (he : e = .setProgress k value) :
      AttemptChange s e r k (some a) (some { a with progress := some value })
  | called (a : Attempt) {now : Time} {runAt : Option Time} {traceparent : Option String}
      (he : e = .continueBegin now k runAt traceparent) (hfree : s.ownedFree a.job = true) :
      AttemptChange s e r k (some a) (some { a with continueCalled := true })
  | left (a : Attempt) {id : JobId} {prepared : List Prepared} {now : Time} {call : WaitCall}
      {suspended : Bool} {found : Option FoundGroup} {entered : Entered}
      (he : e = .waitCommit id prepared)
      (htx : s.txs.get? id = some ⟨k, now, .waitLooked call suspended found⟩)
      (hr : r = .entered entered) :
      AttemptChange s e r k (some a) (some (State.Attempt.leave a call.waitId entered))
  | continued (a : Attempt) {id next : JobId} {now : Time} {job : Job} {runAt : Option Time}
      {traceparent : Option String} {progress : Option Json} (he : e = .continueCommit id)
      (htx : s.txs.get? id = some ⟨k, now, .continuing job runAt traceparent progress⟩)
      (hr : r = .continued next) :
      AttemptChange s e r k (some a) (some { a with ended := a.ended <|> some (.continued next) })

/-- What a step can do to the open transaction on a row. -/
inductive TxChange (s : State) (e : Event) (r : Reply) (id : JobId) : Option Tx → Option Tx → Prop where
  | same (o : Option Tx) (he : o ≠ none → e ≠ .continueCommit id ∧ ∀ prepared, e ≠ .waitCommit id prepared) :
      TxChange s e r id o o
  | closed (tx : Tx) : TxChange s e r id (some tx) none
  | waitBegun {now : Time} {k : ℕ} {call : WaitCall} {a : Attempt} {job : Job}
      (he : e = .waitBegin now k call) (ha : s.attempts.get? k = some a) (hid : a.job.id = id)
      (hown : s.db.owned a.job = some job) (hcall : State.callable a call.waitId = true)
      (hcache : a.cache call.waitId = none) (hended : a.ended.any (·.isContinued) = false)
      (hnow : now ≤ s.now) :
      TxChange s e r id none (some ⟨k, now, .waitLocked call a.ended.isSome⟩)
  | lookedUp {now : Time} {k : ℕ} {call : WaitCall} {suspended : Bool} (he : e = .waitLookup id) :
      TxChange s e r id (some ⟨k, now, .waitLocked call suspended⟩)
        (some ⟨k, now, .waitLooked call suspended (findGroup now (id, call.waitId) s.db)⟩)
  | continueBegun {now : Time} {k : ℕ} {runAt : Option Time} {traceparent : Option String}
      {a : Attempt} {job : Job} (he : e = .continueBegin now k runAt traceparent)
      (ha : s.attempts.get? k = some a) (hid : a.job.id = id)
      (hown : s.db.owned a.job = some job) (hended : a.ended = none)
      (henv : Payload.isPayloadEnvelope a.job.payload = true) (hnow : now ≤ s.now) :
      TxChange s e r id none (some ⟨k, now, .continuing job runAt traceparent a.progress⟩)

/-- The two statements that report a child's final state. -/
def ReportedBy (s : State) (e : Event) (now : Time) (report : Report) : Prop :=
  (∃ k a job settle visible childReported, e = .settle now k settle visible ∧
    s.attempts.get? k = some a ∧ s.db.owned a.job = some job ∧
    settle.report = some childReported ∧ report = childReport a.job.id childReported visible) ∨
  ∃ seen skipped, e = .sweepLost now seen skipped ∧ report = lostReport s.db seen skipped

/-- What a step can do to the wait groups and the wait rows. -/
inductive TablesChange (s : State) (e : Event) (r : Reply) (db' : Db) : Prop where
  | same (hg : db'.groups = s.db.groups) (hw : db'.waits = s.db.waits)
  | reported (now : Time) (report : Report) (hnow : now ≤ s.now)
      (hfree : s.reportFree report = true) (he : ReportedBy s e now report)
      (hg : db'.groups = (reportWaits now report s.db).groups)
      (hw : db'.waits = (reportWaits now report s.db).waits)
  | created {id : JobId} {prepared : List Prepared} {k : ℕ} {now : Time} {call : WaitCall}
      {suspended : Bool} (he : e = .waitCommit id prepared)
      (htx : s.txs.get? id = some ⟨k, now, .waitLooked call suspended none⟩)
      (hr : r = .entered .suspended)
      (hlen : (createWait now (id, call.waitId) call prepared s.db).2.length = call.inputs.length)
      (hg : db'.groups = s.db.groups.insert (id, call.waitId) (call.newGroup now))
      (hw : db'.waits = (insertWaits (id, call.waitId)
        (createWait now (id, call.waitId) call prepared s.db).2 s.db).waits)
      (hchild : ∀ child ∈ (createWait now (id, call.waitId) call prepared s.db).2,
        child < db'.nextId ∧ ∀ job', db'.jobs.get? child = some job' →
          job'.payload.isObject = true → Payload.waited job'.payload = true)
  | deleted {id : JobId} {prepared : List Prepared} {k : ℕ} {now : Time} {call : WaitCall}
      {suspended : Bool} {group : FoundGroup} (he : e = .waitCommit id prepared)
      (htx : s.txs.get? id = some ⟨k, now, .waitLooked call suspended (some group)⟩)
      (hleave : group.remaining = 0 ∨ group.expired = true)
      (hr : r = .entered (.finished
        (waitCheckpoint (group.remaining = 0) (s.db.waitsOf (id, call.waitId)))))
      (hg : db'.groups = (deleteGroup (id, call.waitId) s.db).groups)
      (hw : db'.waits = (deleteGroup (id, call.waitId) s.db).waits)
  | retargeted {id : JobId} {k : ℕ} {now : Time} {job : Job} {runAt : Option Time}
      {traceparent : Option String} {progress : Option Json} (he : e = .continueCommit id)
      (htx : s.txs.get? id = some ⟨k, now, .continuing job runAt traceparent progress⟩)
      (hr : r = .continued s.db.nextId) (hwaited : Payload.waited job.payload = true)
      (hg : db'.groups = s.db.groups)
      (hw : db'.waits = (retargetWaits id s.db.nextId s.db).waits)
  | orphaned (he : e = .sweepOrphans) (hg : db'.groups = (sweepOrphans s.db).groups)
      (hw : db'.waits = (sweepOrphans s.db).waits)

/-- What a step can do to a wait row. -/
inductive WaitChange (s : State) (e : Event) (r : Reply) (db' : Db) (key : WaitKey) :
    Option Wait → Option Wait → Prop where
  | same (o : Option Wait) : WaitChange s e r db' key o o
  | reported (wait : Wait) {now : Time} {report : Report} (he : ReportedBy s e now report) :
      WaitChange s e r db' key (some wait) (some (Wait.reported now report key wait))
  | created (o : Option Wait) {id child : JobId} {prepared : List Prepared} {k : ℕ} {now : Time}
      {call : WaitCall} {suspended : Bool} (he : e = .waitCommit id prepared)
      (htx : s.txs.get? id = some ⟨k, now, .waitLooked call suspended none⟩)
      (hr : r = .entered .suspended) (hkey : key.1 = (id, call.waitId))
      (hmem : child ∈ (createWait now (id, call.waitId) call prepared s.db).2)
      (hbelow : child < db'.nextId) : WaitChange s e r db' key o (some ⟨child, none, none⟩)
  | moved (wait : Wait) {id : JobId} {k : ℕ} {now : Time} {job : Job} {runAt : Option Time}
      {traceparent : Option String} {progress : Option Json} (he : e = .continueCommit id)
      (htx : s.txs.get? id = some ⟨k, now, .continuing job runAt traceparent progress⟩)
      (hr : r = .continued s.db.nextId) (hchild : wait.child = id) (hpending : wait.pending = true) :
      WaitChange s e r db' key (some wait) (some { wait with child := s.db.nextId })
  | deleted (wait : Wait) : WaitChange s e r db' key (some wait) none

namespace State

variable {s s' : State} {r : Reply} {e : Event} {k : ℕ} {id : JobId} {now : Time}

/-! ## Attempts -/

private theorem attempt_insert {k' : ℕ} {a a' : Attempt} (ha : s.attempts.get? k' = some a)
    (h : k = k' → AttemptChange s e r k (some a) (some a')) :
    AttemptChange s e r k (s.attempts.get? k) ((s.attempts.insert k' a').get? k) := by
  rw [Table.get?_insert]
  by_cases hk : k = k'
  · rw [if_pos hk, hk, ha, ← hk]; exact h hk
  · rw [if_neg hk]; exact .same _

theorem attempt_change (h : s.exec e = some (s', r)) (k : ℕ) :
    AttemptChange s e r k (s.attempts.get? k) (s'.attempts.get? k) := by
  by_cases he : e.dbOnly = true
  · rw [(frame_of_dbOnly h he).1]; exact .same _
  cases e with
  | addJob | failJob | completeJob | release | writeProgress | retry | settle | sweepLost
  | sweepWake | sweepOrphans => exact absurd rfl he
  | tick d =>
    simp only [exec, Option.some.injEq, Prod.mk.injEq] at h
    obtain ⟨rfl, -⟩ := h
    exact .same _
  | claim now pool id jobOutcomes =>
    obtain ⟨job, hrow, hclaim, -, -, -, rfl⟩ := claim_cases h
    dsimp only
    rw [Table.get?_insert]
    by_cases hk : k = s.nextAttempt
    · rw [if_pos hk]; exact .started _ rfl hk hrow hclaim
    · rw [if_neg hk]; exact .same _
  | checkpoint k' stepId output resolved =>
    obtain ⟨a, ha, hcall, hcache, hfree, ⟨rfl, -⟩ | ⟨db, hok, rfl, rfl⟩⟩ := checkpoint_cases h
    · exact .same _
    obtain ⟨job, hown, -⟩ := patchEnvelope_ok hok
    refine attempt_insert ha fun hk => ?_
    subst hk
    cases resolved with
    | true => exact .checkpointed a rfl rfl hown (ownedFree_iff.mp hfree job hown) hcache hcall
    | false => exact .same _
  | setProgress k' value =>
    obtain ⟨a, ha, rfl⟩ := setProgress_cases h
    refine attempt_insert ha fun hk => ?_
    subst hk
    exact .progressed a rfl
  | waitBegin now k' call =>
    obtain ⟨a, -, -, -, -, -, ⟨rfl, -⟩ | ⟨job, -, -, -, rfl⟩⟩ := waitBegin_cases h
    · exact .same _
    · exact .same _
  | waitLookup id' =>
    obtain ⟨k, now, call, suspended, -, -, rfl⟩ := waitLookup_cases h
    exact .same _
  | waitCommit id' prepared =>
    obtain ⟨k', now, call, suspended, found, a, htx, ha, -, ⟨rfl, -⟩ |
      ⟨db, entered, -, rfl, rfl⟩⟩ := waitCommit_cases h
    · exact .same _
    refine attempt_insert ha fun hk => ?_
    subst hk
    exact .left a rfl htx rfl
  | continueBegin now k' runAt traceparent =>
    obtain ⟨a, ha, -, hfree, -, ⟨rfl, -⟩ | ⟨-, ⟨-, -, rfl⟩ | ⟨job, -, -, rfl⟩⟩⟩ :=
      continueBegin_cases h
    · exact .same _
    all_goals
      refine attempt_insert ha fun hk => ?_
      subst hk
      exact .called a rfl hfree
  | continueCommit id' =>
    obtain ⟨k', now, job, runAt, traceparent, progress, a, htx, ha, -, ⟨rfl, -⟩ |
      ⟨db, next, -, rfl, rfl⟩⟩ := continueCommit_cases h
    · exact .same _
    refine attempt_insert ha fun hk => ?_
    subst hk
    exact .continued a rfl htx rfl
  | rollback id' =>
    obtain ⟨tx, -, rfl⟩ := rollback_cases h
    exact .same _

/-! ## Open transactions -/

private theorem tx_erase {id' : JobId} {tx : Tx} (htx : s.txs.get? id' = some tx)
    (he : ∀ i, i ≠ id' → e ≠ .continueCommit i ∧ ∀ prepared, e ≠ .waitCommit i prepared) :
    TxChange s e r id (s.txs.get? id) ((s.txs.erase id').get? id) := by
  rw [Table.get?_erase]
  by_cases hid : id = id'
  · rw [if_pos hid, hid, htx]; exact .closed tx
  · rw [if_neg hid]; exact .same _ fun _ => he id hid

theorem tx_change (h : s.exec e = some (s', r)) (id : JobId) :
    TxChange s e r id (s.txs.get? id) (s'.txs.get? id) := by
  by_cases he : e.dbOnly = true
  · rw [(frame_of_dbOnly h he).2.1]
    exact .same _ fun _ => ⟨(by rintro rfl; cases he), (by rintro _ rfl; cases he)⟩
  cases e with
  | addJob | failJob | completeJob | release | writeProgress | retry | settle | sweepLost
  | sweepWake | sweepOrphans => exact absurd rfl he
  | tick d =>
    simp only [exec, Option.some.injEq, Prod.mk.injEq] at h
    obtain ⟨rfl, -⟩ := h
    exact .same _ (by simp)
  | claim now pool id' jobOutcomes =>
    obtain ⟨job, -, -, -, -, -, rfl⟩ := claim_cases h
    exact .same _ (by simp)
  | checkpoint k' stepId output resolved =>
    obtain ⟨a, -, -, -, -, ⟨rfl, -⟩ | ⟨db, -, -, rfl⟩⟩ := checkpoint_cases h
    · exact .same _ (by simp)
    · exact .same _ (by simp)
  | setProgress k' value =>
    obtain ⟨a, -, rfl⟩ := setProgress_cases h
    exact .same _ (by simp)
  | waitBegin now k' call =>
    obtain ⟨a, ha, hcall, hcache, hfree, hnow, ⟨rfl, -⟩ | ⟨job, hown, hended, -, rfl⟩⟩ :=
      waitBegin_cases h
    · exact .same _ (by simp)
    · dsimp only
      rw [Table.get?_insert]
      by_cases hid : id = a.job.id
      · rw [if_pos hid, hid, ownedFree_iff.mp hfree job hown]
        exact .waitBegun rfl ha rfl hown hcall hcache hended hnow
      · rw [if_neg hid]; exact .same _ (by simp)
  | waitLookup id' =>
    obtain ⟨k, now, call, suspended, htx, -, rfl⟩ := waitLookup_cases h
    dsimp only
    rw [Table.get?_insert]
    by_cases hid : id = id'
    · subst hid
      rw [if_pos rfl, htx]
      exact .lookedUp rfl
    · rw [if_neg hid]; exact .same _ (by simp)
  | waitCommit id' prepared =>
    obtain ⟨k', now, call, suspended, found, a, htx, ha, -, ⟨rfl, -⟩ |
      ⟨db, entered, -, rfl, rfl⟩⟩ := waitCommit_cases h
    all_goals
      refine tx_erase htx fun i hi => ⟨by simp, fun prepared' heq => ?_⟩
      simp only [Event.waitCommit.injEq] at heq
      exact hi heq.1.symm
  | continueBegin now k' runAt traceparent =>
    obtain ⟨a, ha, henv, hfree, hnow, ⟨rfl, -⟩ | ⟨hended, ⟨-, -, rfl⟩ | ⟨job, hown, -, rfl⟩⟩⟩ :=
      continueBegin_cases h
    · exact .same _ (by simp)
    · exact .same _ (by simp)
    · dsimp only
      rw [Table.get?_insert]
      by_cases hid : id = a.job.id
      · rw [if_pos hid, hid, ownedFree_iff.mp hfree job hown]
        exact .continueBegun rfl ha rfl hown hended henv hnow
      · rw [if_neg hid]; exact .same _ (by simp)
  | continueCommit id' =>
    obtain ⟨k', now, job, runAt, traceparent, progress, a, htx, ha, -, ⟨rfl, -⟩ |
      ⟨db, next, -, rfl, rfl⟩⟩ := continueCommit_cases h
    all_goals
      refine tx_erase htx fun i hi => ⟨fun heq => ?_, by simp⟩
      simp only [Event.continueCommit.injEq] at heq
      exact hi heq.symm
  | rollback id' =>
    obtain ⟨tx, htx, rfl⟩ := rollback_cases h
    exact tx_erase htx fun i _ => ⟨by simp, by simp⟩

/-! ## Wait tables -/

/-- The jobs that an enqueue returns have ids of the sequence. -/
private theorem enqueueChildren_below {own : JobId} {now : Time} {queue : String}
    {children : List (Option Json × Prepared)} {db : Db} (hids : db.IdsBelow)
    (hfree : s.childrenFree own now queue children db = true) {child : JobId}
    (hmem : child ∈ (enqueueChildren now queue children db).2) :
    child < (enqueueChildren now queue children db).1.nextId := by
  induction children generalizing db with
  | nil => simp [enqueueChildren] at hmem
  | cons head children ih =>
    obtain ⟨input, prepared⟩ := head
    simp only [childrenFree, Bool.and_eq_true] at hfree
    obtain ⟨hhead, htail⟩ := hfree
    have henq := enqueued_enqueueChild now queue input prepared hids
    have hle := (enqueued_enqueueChildren now queue children henq.idsBelow).nextId_le
    simp only [enqueueChildren, List.mem_cons] at hmem ⊢
    rcases hmem with rfl | hmem
    · refine lt_of_lt_of_le ?_ hle
      cases prepared with
      | duplicate id' =>
        simp only [Bool.and_eq_true, decide_eq_true_eq] at hhead
        exact hhead.1
      | add options =>
        change (addJob now (childSpec queue input options) db).2 <
          (addJob now (childSpec queue input options) db).1.nextId
        have hfits := planAdd_fits db (childSpec queue input options)
        rw [addJob_snd, addJob_nextId]
        cases hplan : planAdd db (childSpec queue input options) with
        | insert | supersede => exact Nat.lt_succ_self _
        | replace id' =>
          rw [hplan] at hfits
          obtain ⟨job, hrow, -⟩ := hfits
          exact hids id' job hrow
        | dedupe id' =>
          rw [hplan] at hfits
          obtain ⟨⟨job, hrow, -⟩, -⟩ := hfits
          exact hids id' job hrow
    · exact ih henq.idsBelow htail hmem

/-- The children of a new group carry the `waited` mark. -/
private theorem createWait_children {id : JobId} {now : Time} {call : WaitCall}
    {prepared : List Prepared} {suspended : Bool} (hwf : Wf s)
    (hfree : s.childrenFree id now call.queue (call.inputs.zip prepared)
      (insertGroup now (id, call.waitId) call s.db) = true) {child : JobId}
    (hmem : child ∈ (createWait now (id, call.waitId) call prepared s.db).2) :
    child < (createWait now (id, call.waitId) call prepared s.db).1.nextId ∧
      ∀ job', (suspendJob (id, call.waitId) suspended
        (createWait now (id, call.waitId) call prepared s.db).1).jobs.get? child = some job' →
        job'.payload.isObject = true → Payload.waited job'.payload = true := by
  have hids : (insertGroup now (id, call.waitId) call s.db).IdsBelow := hwf.idsBelow
  have hgroups := (enqueued_enqueueChildren now call.queue (call.inputs.zip prepared) hids).groups
  refine ⟨enqueueChildren_below hids hfree hmem, fun job' hrow' hobj => ?_⟩
  have hgroup : (createWait now (id, call.waitId) call prepared s.db).1.groups.get?
      (id, call.waitId) = some (call.newGroup now) := by
    simp [createWait, hgroups]
  have hmem' : child ∈ (enqueueChildren now call.queue (call.inputs.zip prepared)
      (insertGroup now (id, call.waitId) call s.db)).2 := hmem
  rw [get?_suspendJob hgroup] at hrow'
  simp only [createWait, get?_markWaited, hmem', true_and] at hrow'
  have hmarked : ∀ row : Job, ∀ marked, marked = (if row.payload.isObject = true then
      row.setPayload (Payload.markWaited row.payload) else row) → marked.payload.isObject = true →
      Payload.waited marked.payload = true := by
    rintro row _ rfl hobj
    by_cases hrow : row.payload.isObject = true
    · simp [hrow, Job.setPayload, Payload.waited, Payload.markWaited, Json.get?_set hrow, Json.isTrue]
    · simp [hrow] at hobj
  split at hrow'
  · simp only [Option.map_map, Option.map_eq_some_iff, Function.comp] at hrow'
    obtain ⟨row, -, rfl⟩ := hrow'
    have hwaited := hmarked row _ rfl
    exact hwaited hobj
  · obtain ⟨row, -, rfl⟩ := Option.map_eq_some_iff.mp hrow'
    exact hmarked row _ rfl hobj

theorem tables_change (hwf : Wf s) (h : s.exec e = some (s', r)) : TablesChange s e r s'.db := by
  cases e with
  | tick d =>
    simp only [exec, Option.some.injEq, Prod.mk.injEq] at h
    obtain ⟨rfl, -⟩ := h
    exact .same rfl rfl
  | addJob now spec =>
    obtain ⟨-, rfl⟩ := addJob_cases h
    exact .same addJob_groups addJob_waits
  | claim now pool id jobOutcomes =>
    obtain ⟨job, -, -, -, -, -, rfl⟩ := claim_cases h
    exact .same rfl rfl
  | failJob now pool id error =>
    obtain ⟨-, rfl⟩ := failJob_cases h
    exact .same failJob_groups failJob_waits
  | completeJob pool id =>
    obtain ⟨-, rfl⟩ := completeJob_cases h
    exact .same completeJob_groups completeJob_waits
  | release now pools =>
    obtain ⟨-, rfl⟩ := release_cases h
    exact .same rfl rfl
  | checkpoint k stepId output resolved =>
    obtain ⟨a, -, -, -, -, ⟨rfl, -⟩ | ⟨db, hok, -, rfl⟩⟩ := checkpoint_cases h
    · exact .same rfl rfl
    · exact .same (patchEnvelope_frame hok).1 (patchEnvelope_frame hok).2.1
  | setProgress k value =>
    obtain ⟨a, -, rfl⟩ := setProgress_cases h
    exact .same rfl rfl
  | writeProgress k =>
    obtain ⟨a, -, -, ⟨rfl, -⟩ | ⟨value, db, hok, rfl, -⟩⟩ := writeProgress_cases h
    · exact .same rfl rfl
    · exact .same (patchEnvelope_frame hok).1 (patchEnvelope_frame hok).2.1
  | retry now k runAt =>
    obtain ⟨a, -, -, -, ⟨-, rfl, -⟩ | ⟨job, -, -, rfl⟩⟩ := retry_cases h
    · exact .same rfl rfl
    · exact .same rfl rfl
  | settle now k settle visible =>
    obtain ⟨a, ha, hnow, -, ⟨-, rfl, -⟩ | ⟨db, hsettle, rfl, -, hreport⟩⟩ := settle_cases h
    · exact .same rfl rfl
    obtain ⟨job, db₁, db₂, hown, hdb₁, hdb₂, rfl⟩ := settleJob_true hsettle
    -- Only a report touches the wait tables; neither the outcome nor the row does.
    rcases hdb₂ with ⟨-, rfl⟩ | ⟨report, hrep, rfl⟩
    · rcases hdb₁ with rfl | ⟨outcome, rfl⟩
      · exact .same settleRow_groups settleRow_waits
      · exact .same settleRow_groups settleRow_waits
    · have hby : ReportedBy s (.settle now k settle visible) now
          (childReport a.job.id report visible) :=
        .inl ⟨k, a, job, settle, visible, report, rfl, ha, hown, hrep, rfl⟩
      rcases hdb₁ with rfl | ⟨outcome, rfl⟩
      · exact .reported now _ hnow (hreport report hrep) hby settleRow_groups settleRow_waits
      · exact .reported now _ hnow (hreport report hrep) hby settleRow_groups settleRow_waits
  | waitBegin now k call =>
    obtain ⟨a, -, -, -, -, -, ⟨rfl, -⟩ | ⟨job, -, -, -, rfl⟩⟩ := waitBegin_cases h
    · exact .same rfl rfl
    · exact .same rfl rfl
  | waitLookup id =>
    obtain ⟨k, now, call, suspended, -, -, rfl⟩ := waitLookup_cases h
    exact .same rfl rfl
  | waitCommit id prepared =>
    obtain ⟨k, now, call, suspended, found, a, htx, ha, hprep, ⟨rfl, -⟩ |
      ⟨db, entered, hok, rfl, rfl⟩⟩ := waitCommit_cases h
    · exact .same rfl rfl
    obtain ⟨hid, job, hrow, hown⟩ := owned_of_tx hwf htx ha
    cases found with
    | none =>
      rw [enterWait_missing, hid] at hok
      simp only [Except.ok.injEq, Prod.mk.injEq] at hok
      obtain ⟨rfl, rfl⟩ := hok
      obtain ⟨hgroups, hwaits, hlen⟩ := createWait_tables now (id, call.waitId) hwf.idsBelow
        (hprep rfl).1
      exact .created rfl htx rfl hlen (by simpa using hgroups) (by simpa using hwaits)
        fun child hmem => by simpa using createWait_children hwf (hprep rfl).2 hmem
    | some group =>
      obtain ⟨checkpoint, hleave, rfl, hfin⟩ | ⟨-, -, rfl, rfl⟩ := enterWait_found hok
      · obtain ⟨rfl, db₁, hwrite, rfl⟩ := finishWait_ok hfin
        obtain ⟨hg, hw, -⟩ := patchEnvelope_frame hwrite
        rw [hid]
        exact .deleted rfl htx hleave rfl (by simp [deleteGroup, hg]) (by simp [deleteGroup, hw])
      · exact .same suspendJob_groups suspendJob_waits
  | continueBegin now k runAt traceparent =>
    obtain ⟨a, -, -, -, -, ⟨rfl, -⟩ | ⟨-, ⟨-, -, rfl⟩ | ⟨job, -, -, rfl⟩⟩⟩ := continueBegin_cases h
    · exact .same rfl rfl
    · exact .same rfl rfl
    · exact .same rfl rfl
  | continueCommit id =>
    obtain ⟨k, now, job, runAt, traceparent, progress, a, htx, ha, -, ⟨rfl, -⟩ |
      ⟨db, next, hok, rfl, rfl⟩⟩ := continueCommit_cases h
    · exact .same rfl rfl
    obtain ⟨rfl, hnext, hgroups, -, hwaits⟩ := continue_tables hwf htx ha hok
    -- `continueJob` follows the waits of a row that carries the mark.
    cases hwaited : Payload.waited job.payload with
    | false => exact .same hgroups (by simpa [hwaited] using hwaits)
    | true => exact .retargeted rfl htx rfl hwaited hgroups (by simpa [hwaited] using hwaits)
  | rollback id =>
    obtain ⟨tx, -, rfl⟩ := rollback_cases h
    exact .same rfl rfl
  | sweepLost now seen skipped =>
    obtain ⟨hguard, rfl⟩ := sweepLost_cases h
    exact .reported now _ hguard.1 hguard.2 (.inr ⟨seen, skipped, rfl, rfl⟩) rfl rfl
  | sweepWake now =>
    obtain ⟨-, rfl⟩ := sweepWake_cases h
    exact .same rfl rfl
  | sweepOrphans =>
    simp only [exec, Option.some.injEq, Prod.mk.injEq] at h
    obtain ⟨rfl, -⟩ := h
    exact .orphaned rfl rfl rfl

/-- Every step changes a wait row in one of the listed ways. -/
theorem wait_change (hwf : Wf s) (h : s.exec e = some (s', r)) (key : WaitKey) :
    WaitChange s e r s'.db key (s.db.waits.get? key) (s'.db.waits.get? key) := by
  have hkept : ∀ {o o' : Option Wait}, o' = o ∨ o' = none → WaitChange s e r s'.db key o o' := by
    rintro o o' (rfl | rfl)
    · exact .same _
    · cases o with
      | none => exact .same _
      | some wait => exact .deleted wait
  cases tables_change hwf h with
  | same hg hw => exact hkept (.inl (by rw [hw]))
  | reported now report hnow hfree he hg hw =>
    rw [hw, get?_reportWaits_waits]
    cases s.db.waits.get? key with
    | none => exact .same _
    | some wait => exact .reported wait he
  | @created id prepared k now call suspended he htx hr hlen hg hw hchild =>
    obtain ⟨group, idx⟩ := key
    cases decEq group (id, call.waitId) with
    | isTrue hgroup =>
      subst hgroup
      rw [hw, get?_insertWaits_self]
      split
      · rename_i child hidx
        have hmem := List.mem_of_getElem? hidx
        exact .created _ he htx hr rfl hmem (hchild child hmem).1
      · exact .same _
    | isFalse hgroup => exact hkept (.inl (by rw [hw, get?_insertWaits_ne hgroup]))
  | deleted he htx hleave hr hg hw =>
    rw [hw, get?_deleteGroup_waits]
    split
    · exact hkept (.inr rfl)
    · exact .same _
  | retargeted he htx hr hwaited hg hw =>
    rw [hw, get?_retargetWaits]
    cases s.db.waits.get? key with
    | none => exact .same _
    | some wait =>
      simp only [Option.map_some]
      split
      · rename_i hmoved
        exact .moved wait he htx hr hmoved.1 hmoved.2
      · exact .same _
  | orphaned he hg hw =>
    simp only [hw, sweepOrphans, Table.get?_filter]
    apply hkept
    cases s.db.waits.get? key with
    | none => exact .inl rfl
    | some wait => simp only [Option.filter]; split <;> simp

end State

end BetterGraphileWorker
