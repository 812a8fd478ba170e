-- SUMMARY: Continuations: one row per logical job can run again, and a committed continuation takes everything over.
import BetterGraphileWorker.Fencing

/-!
# Continuations

`continueJob` turns one row of a logical job into another. The lineage records from
which row each row descends, which rows have been continued, and on which waits a
producer's re-add has dropped the mark that `continueJob` looks for.
-/

namespace BetterGraphileWorker

structure Lineage where
  /-- The first row of the logical job. -/
  root : JobId → JobId
  continued : JobId → Bool
  /-- The payload of the wait's child was replaced after the wait was created. -/
  dropped : WaitKey → Bool

def Lineage.start : Lineage := ⟨id, fun _ => false, fun _ => false⟩

/-- The row that a step continues and its continuation. -/
def State.continues (s : State) (e : Event) (s' : State) : Option (JobId × JobId) :=
  match e with
  | .continueCommit id => if s.db.nextId < s'.db.nextId then some (id, s.db.nextId) else none
  | _ => none

def Lineage.note (s : State) (e : Event) (s' : State) (l : Lineage) : Lineage where
  root := match s.continues e s' with
    | some (id, next) => Function.update l.root next (l.root id)
    | none => l.root
  continued := match s.continues e s' with
    | some (id, _) => Function.update l.continued id true
    | none => l.continued
  dropped key := (s.db.waits.get? key).any fun wait => l.dropped key || s.replaces s' wait.child

/-- The system with its lineage. -/
def lineage : TransitionSystem (State × Lineage) Event := system.observe .start Lineage.note

/-! ## Payloads of a row -/

/-- What a step that does not replace a payload can do to it. -/
inductive Patched (payload : Json) : Json → Prop where
  | same : Patched payload payload
  | waited (h : payload.isObject = true) : Patched payload (Payload.markWaited payload)
  | step (id : String) (checkpoint : Json) : Patched payload (Payload.setStep payload id checkpoint)
  | progress (value : Json) : Patched payload (Payload.setProgress payload value)

variable {s s' : State} {e : Event} {r : Reply} {id : JobId} {l : Lineage} {job job' : Job}

theorem Patched.isObject {payload payload' : Json} (h : Patched payload payload') :
    payload'.isObject = payload.isObject := by
  cases h with
  | same => rfl
  | waited | step | progress => exact Json.isObject_set

theorem Patched.waited_kept {payload payload' : Json} (h : Patched payload payload')
    (hobj : payload.isObject = true) (hw : Payload.waited payload = true) :
    Payload.waited payload' = true := by
  cases h with
  | same => exact hw
  | waited => simp [Payload.waited, Payload.markWaited, Json.get?_set hobj, Json.isTrue]
  | step | progress =>
    simpa [Payload.waited, Payload.setStep, Payload.setProgress, Json.get?_set hobj] using hw

theorem Patched.cleanPayload {payload payload' : Json} (h : Patched payload payload')
    (henv : Payload.isPayloadEnvelope payload = true) :
    Payload.cleanPayload payload' = Payload.cleanPayload payload := by
  have hobj := Payload.isObject_of_isPayloadEnvelope henv
  cases h with
  | same => rfl
  | waited | step | progress => exact Payload.cleanPayload_set hobj (by decide)

theorem Patched.isPayloadEnvelope {payload payload' : Json} (h : Patched payload payload')
    (henv : Payload.isPayloadEnvelope payload = true) :
    Payload.isPayloadEnvelope payload' = true := by
  have hobj := Payload.isObject_of_isPayloadEnvelope henv
  cases h with
  | same => exact henv
  | waited | step | progress =>
    rw [← henv]
    exact Payload.isPayloadEnvelope_set hobj (by decide)

/-- An enqueue that does not replace a row's payload may mark it as waited on. -/
theorem payload_queued (hq : Queued job job') (hgen : job'.generation = job.generation) :
    job'.payload = job.payload ∨
      job.payload.isObject = true ∧ job'.payload = Payload.markWaited job.payload := by
  obtain ⟨mid, hr, hjob'⟩ := hq
  have hmid : mid.generation = job.generation := by
    rcases hjob' with rfl | ⟨-, rfl⟩ <;> exact hgen
  have hpayload : mid.payload = job.payload := by
    rcases hr.kept hmid with rfl | rfl <;> rfl
  rcases hjob' with rfl | ⟨hobj, rfl⟩
  · exact .inl hpayload
  · exact .inr ⟨hpayload ▸ hobj, by simp [Job.setPayload, hpayload]⟩

private theorem patched_queued (hq : Queued job job') (hgen : job'.generation = job.generation) :
    Patched job.payload job'.payload := by
  rcases payload_queued hq hgen with h | ⟨hobj, h⟩ <;> rw [h]
  · exact .same
  · exact .waited hobj

/-- A payload is patched unless the step replaces it. -/
theorem patched_of_row (hwf : Wf s) (h : s.exec e = some (s', r))
    (hrow : s.db.jobs.get? id = some job) (hrow' : s'.db.jobs.get? id = some job')
    (hkept : s.replaces s' id = false) : Patched job.payload job'.payload := by
  have hgen : job'.generation ≤ job.generation := by
    simpa [State.replaces, hrow, hrow'] using hkept
  have hchange := State.row_change hwf h id
  rw [hrow, hrow'] at hchange
  cases hchange with
  | queued _ _ hfree hq he => exact patched_queued hq (le_antisymm hgen hq.generation_le)
  | suspended _ mid he htx ha hr hq hfound =>
    change Patched job.payload mid.payload
    exact patched_queued hq (le_antisymm hgen hq.generation_le)
  | checkpointed | finished => exact .step _ _
  | progressed => exact .progress _
  | continued =>
    have hpayload : job.retired.payload = job.payload := by unfold Job.retired; split <;> rfl
    rw [hpayload]
    exact .same
  | same | claimed | unlocked | woken | retried | exhausted => exact .same

/-- A locked row's payload is patched. -/
theorem patched_of_locked (hwf : Wf s) (h : s.exec e = some (s', r))
    (hrow : s.db.jobs.get? id = some job) (hrow' : s'.db.jobs.get? id = some job')
    (hlock : job.lock ≠ none) : Patched job.payload job'.payload := by
  refine patched_of_row hwf h hrow hrow' ?_
  by_contra hne
  obtain ⟨row, -, hrow₁, -, hnone, -⟩ := State.replaces_cases hwf h (by simpa using hne)
  rw [Option.some.inj (hrow.symm.trans hrow₁)] at hlock
  exact hlock hnone

/-! ## The committing step -/

/-- Everything that a committed continuation of `id` does. -/
structure Continues (s : State) (id : JobId) (s' : State) (r : Reply) (k : ℕ) (now : Time)
    (job : Job) (runAt : Option Time) (traceparent : Option String) (progress : Option Json)
    (a : Attempt) : Prop where
  tx : s.txs.get? id = some ⟨k, now, .continuing job runAt traceparent progress⟩
  attempt : s.attempts.get? k = some a
  own : a.job.id = id
  row : s.db.jobs.get? id = some job
  running : a.ended = none
  reply : r = .continued s.db.nextId
  nextId : s'.db.nextId = s.db.nextId + 1
  rows : ∀ i, s'.db.jobs.get? i =
    if i = s.db.nextId then some (newJob now (continueSpec job runAt traceparent progress))
    else if i = id then (if a.jobOutcomes then none else some job.retired)
    else s.db.jobs.get? i
  waits : s'.db.waits = if Payload.waited job.payload then
    (retargetWaits id s.db.nextId s.db).waits else s.db.waits
  txs : s'.txs = s.txs.erase id
  attempts : s'.attempts =
    s.attempts.insert k { a with ended := some (.continued s.db.nextId) }

theorem continues_of_commit (hwf : Wf s) (h : s.continueCommit id = some (s', r))
    (hr : r ≠ .refused) : ∃ k now job runAt traceparent progress a,
      Continues s id s' r k now job runAt traceparent progress a := by
  obtain ⟨k, now, job, runAt, traceparent, progress, a, htx, ha, -, ⟨-, hrefused⟩ |
    ⟨db, next, hok, hreply, hs'⟩⟩ := State.continueCommit_cases h
  · exact absurd hrefused hr
  obtain ⟨hnext, hnextId, -, hrows, hwaits⟩ := State.continue_tables hwf htx ha hok
  obtain ⟨a', row, ha', hid, hrow, -, -, hstage, hended⟩ := hwf.tx id _ htx
  obtain rfl : a' = a := Option.some.inj (ha'.symm.trans ha)
  subst hnext hs' hstage
  exact ⟨k, now, job, runAt, traceparent, progress, a', htx, ha, hid, hrow, hended, hreply,
    hnextId, hrows, hwaits, rfl, by simp [hended]⟩

theorem continues_of_tx (hwf : Wf s) (h : s.continueCommit id = some (s', r)) (hr : r ≠ .refused)
    {k : ℕ} {now : Time} {runAt : Option Time} {traceparent : Option String}
    {progress : Option Json}
    (htx : s.txs.get? id = some ⟨k, now, .continuing job runAt traceparent progress⟩) :
    ∃ a, Continues s id s' r k now job runAt traceparent progress a := by
  obtain ⟨k', now', job', runAt', traceparent', progress', a, hc⟩ := continues_of_commit hwf h hr
  have heq := htx.symm.trans hc.tx
  simp only [Option.some.injEq, Tx.mk.injEq, TxStage.continuing.injEq] at heq
  obtain ⟨rfl, rfl, rfl, rfl, rfl, rfl⟩ := heq
  exact ⟨a, hc⟩

theorem continues_cases (hwf : Wf s) (h : s.exec e = some (s', r)) :
    s.continues e s' = none ∧ (∀ id, e = .continueCommit id → r = .refused) ∨
      ∃ id k now job runAt traceparent progress a, e = .continueCommit id ∧
        s.continues e s' = some (id, s.db.nextId) ∧
        Continues s id s' r k now job runAt traceparent progress a := by
  cases e with
  | continueCommit id =>
    by_cases hr : r = .refused
    · obtain ⟨k, now, job, runAt, traceparent, progress, a, -, -, -, ⟨rfl, -⟩ |
        ⟨db, next, -, rfl, -⟩⟩ := State.continueCommit_cases h
      · exact .inl ⟨by simp [State.continues], fun _ _ => hr⟩
      · cases hr
    · obtain ⟨k, now, job, runAt, traceparent, progress, a, hc⟩ := continues_of_commit hwf h hr
      exact .inr ⟨id, k, now, job, runAt, traceparent, progress, a, rfl,
        by simp [State.continues, hc.nextId], hc⟩
  | _ => exact .inl ⟨rfl, fun _ he => by cases he⟩

theorem Continues.id_lt {k : ℕ} {now : Time} {runAt : Option Time} {traceparent : Option String}
    {progress : Option Json} {a : Attempt} (hwf : Wf s)
    (hc : Continues s id s' r k now job runAt traceparent progress a) : id < s.db.nextId :=
  hwf.idsBelow _ _ hc.row

/-! ## The invariant -/

structure Lineage.Inv (s : State) (l : Lineage) : Prop where
  fresh : ∀ id, s.db.nextId ≤ id → l.root id = id ∧ l.continued id = false
  root_le : ∀ id, l.root id ≤ id
  tips : ∀ id id', l.continued id = false → l.continued id' = false → l.root id = l.root id' →
    id = id'
  spent : ∀ id job, l.continued id = true → s.db.jobs.get? id = some job →
    job.key = none ∧ job.live = false
  closed : ∀ id, l.continued id = true → s.txs.get? id = none
  ended : ∀ id job k a, l.continued id = true → s.db.jobs.get? id = some job →
    s.attempts.get? k = some a → a.job.id = id → job.lock = some a.lock →
    a.ended.any (·.isContinued) = true
  /-- A running job's row stays an envelope of the input that its process reads. -/
  envelope : ∀ k a job, s.attempts.get? k = some a → s.db.jobs.get? a.job.id = some job →
    job.lock = some a.lock → Payload.isPayloadEnvelope a.job.payload = true →
    Payload.isPayloadEnvelope job.payload = true ∧
      Payload.cleanPayload job.payload = Payload.cleanPayload a.job.payload
  begun : ∀ id tx a, s.txs.get? id = some tx → s.attempts.get? tx.attempt = some a →
    Payload.isPayloadEnvelope a.job.payload = true
  children : ∀ key wait, s.db.waits.get? key = some wait → wait.child < s.db.nextId
  marked : ∀ key wait job, s.db.waits.get? key = some wait → wait.pending = true →
    s.db.jobs.get? wait.child = some job → job.payload.isObject = true → l.dropped key = false →
    Payload.waited job.payload = true

/-- Rows that have been continued stay spent, and nobody locks them again. -/
private theorem spent_row (hwf : Wf s) (hinv : Lineage.Inv s l) (h : s.exec e = some (s', r))
    (hcontinued : l.continued id = true) (hrow' : s'.db.jobs.get? id = some job') :
    ∃ job, s.db.jobs.get? id = some job ∧ job'.key = none ∧ job'.live = false ∧
      (job'.lock = job.lock ∨ job'.lock = none) := by
  have hlt : id < s.db.nextId := by
    by_contra hle
    simp [(hinv.fresh id (not_lt.mp hle)).2] at hcontinued
  have hchange := State.row_change hwf h id
  rw [hrow'] at hchange
  generalize hrow : s.db.jobs.get? id = before at hchange
  have hclosed := hinv.closed id hcontinued
  cases hchange with
  | same =>
    obtain ⟨hkey, hlive⟩ := hinv.spent id job' hcontinued hrow
    exact ⟨job', rfl, hkey, hlive, .inl rfl⟩
  | inserted _ hle => exact absurd hlt (not_lt.mpr hle)
  | continuation he htx hid => exact absurd hlt (by simp [hid])
  | queued job _ hfree hq =>
    obtain ⟨hkey, hlive⟩ := hinv.spent id job hcontinued hrow
    obtain ⟨mid, hr, hjob'⟩ := hq
    obtain rfl := hr.keyless hkey
    rcases hjob' with rfl | ⟨-, rfl⟩ <;> exact ⟨_, rfl, hkey, hlive, .inl rfl⟩
  | claimed job he hfree hclaim =>
    obtain ⟨-, hlive⟩ := hinv.spent id job hcontinued hrow
    simp [claimable, Job.available, hlive] at hclaim
  | unlocked job =>
    obtain ⟨hkey, hlive⟩ := hinv.spent id job hcontinued hrow
    exact ⟨job, rfl, hkey, hlive, .inr rfl⟩
  | checkpointed job | progressed job | woken job | retried job =>
    obtain ⟨hkey, hlive⟩ := hinv.spent id job hcontinued hrow
    exact ⟨job, rfl, hkey, hlive, .inl rfl⟩
  | exhausted job =>
    obtain ⟨hkey, -⟩ := hinv.spent id job hcontinued hrow
    exact ⟨job, rfl, hkey, by simp [Job.live, Job.exhaust], .inl rfl⟩
  | suspended job mid he htx | finished job he htx | continued job he htx =>
    simp [hclosed] at htx

/-- A row with an id that was in use was there before. -/
theorem row_of_below (hwf : Wf s) (h : s.exec e = some (s', r)) (hid : id < s.db.nextId)
    (hrow' : s'.db.jobs.get? id = some job') : ∃ job, s.db.jobs.get? id = some job := by
  have hchange := State.row_change hwf h id
  rw [hrow'] at hchange
  generalize hrow : s.db.jobs.get? id = before at hchange
  cases hchange with
  | same => exact ⟨job', rfl⟩
  | inserted _ hle => exact absurd hid (not_lt.mpr hle)
  | continuation he htx hnext => exact absurd hid (by simp [hnext])
  | _ => exact ⟨_, rfl⟩

/-- Where a wait row comes from: it was there, was just created, or just moved along. -/
private theorem wait_cases (hwf : Wf s) (h : s.exec e = some (s', r)) {key : WaitKey}
    {wait' : Wait} (hget' : s'.db.waits.get? key = some wait') :
    (∃ wait, s.db.waits.get? key = some wait ∧ (wait'.pending = true → wait.pending = true) ∧
      wait'.child = wait.child) ∨
    wait'.child < s'.db.nextId ∧ ∀ job', s'.db.jobs.get? wait'.child = some job' →
      job'.payload.isObject = true → Payload.waited job'.payload = true := by
  obtain ⟨group, idx⟩ := key
  cases State.tables_change hwf h with
  | same hg hw => exact .inl ⟨wait', hw ▸ hget', fun hp => hp, rfl⟩
  | reported now report hnow hfree he hg hw =>
    rw [hw, get?_reportWaits_waits] at hget'
    obtain ⟨wait, hget, rfl⟩ := Option.map_eq_some_iff.mp hget'
    exact .inl ⟨wait, hget, Wait.pending_of_reported, Wait.reported_child⟩
  | @created id _ _ _ call _ he htx hr hlen hg hw hchild =>
    by_cases hgroup : group = (id, call.waitId)
    · subst hgroup
      rw [hw, get?_insertWaits_self] at hget'
      split at hget'
      · rename_i child hidx
        obtain rfl := Option.some.inj hget'
        exact .inr (hchild child (List.mem_of_getElem? hidx))
      · exact .inl ⟨wait', hget', fun hp => hp, rfl⟩
    · rw [hw, get?_insertWaits_ne hgroup] at hget'
      exact .inl ⟨wait', hget', fun hp => hp, rfl⟩
  | deleted he htx hleave hr hg hw =>
    rw [hw, get?_deleteGroup_waits] at hget'
    split at hget'
    · cases hget'
    · exact .inl ⟨wait', hget', fun hp => hp, rfl⟩
  | @retargeted old k now job runAt traceparent progress he htx hr hwaited hg hw =>
    rw [hw, get?_retargetWaits] at hget'
    obtain ⟨wait, hget, rfl⟩ := Option.map_eq_some_iff.mp hget'
    split
    · subst he
      obtain ⟨a, hc⟩ := continues_of_tx hwf h (by simp [hr]) htx
      refine .inr ⟨by simp [hc.nextId], fun job' hrow' _ => ?_⟩
      rw [hc.rows, if_pos rfl] at hrow'
      obtain rfl := Option.some.inj hrow'
      have hobj : job.payload.isObject = true := by
        obtain ⟨value, hvalue, -⟩ := (Option.any_eq_true _ _).mp hwaited
        exact Json.isObject_of_get? hvalue
      change Payload.waited (Payload.continueEnvelope job.payload progress traceparent) = true
      rw [Payload.waited_continueEnvelope progress traceparent hobj, hwaited]
    · exact .inl ⟨wait, hget, fun hp => hp, rfl⟩
  | orphaned he hg hw =>
    simp only [hw, sweepOrphans, Table.get?_filter, Option.filter_eq_some_iff] at hget'
    exact .inl ⟨wait', hget'.1, fun hp => hp, rfl⟩

/-- An attempt that has continued has continued for good. -/
private theorem isContinued_persists (h : s.exec e = some (s', r)) {k : ℕ} {a a' : Attempt}
    (ha : s.attempts.get? k = some a) (ha' : s'.attempts.get? k = some a')
    (hk : k < s.nextAttempt) (hended : a.ended.any (·.isContinued) = true) :
    a'.ended.any (·.isContinued) = true := by
  have hchange := State.attempt_change h k
  rw [ha, ha'] at hchange
  have hor : ∀ o : Option Ending, (a.ended <|> o).any (·.isContinued) = true := fun o => by
    cases hcase : a.ended with
    | none => simp [hcase] at hended
    | some ending => simpa [hcase] using hended
  cases hchange with
  | same | checkpointed | progressed | called => exact hended
  | started o he hnext => exact absurd hk (by simp [hnext])
  | @left _ _ _ _ _ _ _ entered he htx hr =>
    cases entered with
    | finished => exact hended
    | suspended => exact hor _
  | continued => exact hor _

/-- A continued row is not continued again. -/
theorem not_continued {k : ℕ} {now : Time} {runAt : Option Time}
    {traceparent : Option String} {progress : Option Json} {a : Attempt}
    (hinv : Lineage.Inv s l)
    (hc : Continues s id s' r k now job runAt traceparent progress a) :
    l.continued id = false := by
  by_contra hne
  have hclosed := hinv.closed id (by simpa using hne)
  simp [hc.tx] at hclosed

section
variable (hwf : Wf s) (hdist : DistinctLocks s) (hinv : Lineage.Inv s l)
  (h : s.exec e = some (s', r))
include hwf hinv h

/-- Of a row that the step continues, nothing that can run again is left. -/
private theorem spent_exec (hcontinued : (l.note s e s').continued id = true)
    (hrow' : s'.db.jobs.get? id = some job') : job'.key = none ∧ job'.live = false := by
  rcases continues_cases hwf h with ⟨hnone, -⟩ | ⟨old, k, now, job, runAt, traceparent, progress,
    a, -, hsome, hc⟩
  · simp only [Lineage.note, hnone] at hcontinued
    obtain ⟨-, -, hkey, hlive, -⟩ := spent_row hwf hinv h hcontinued hrow'
    exact ⟨hkey, hlive⟩
  · simp only [Lineage.note, hsome, Function.update_apply] at hcontinued
    split at hcontinued
    · rename_i hid
      rw [hc.rows, if_neg (by rw [hid]; exact (hc.id_lt hwf).ne), if_pos hid] at hrow'
      split at hrow'
      · cases hrow'
      · obtain rfl := Option.some.inj hrow'
        exact ⟨Job.retired_key, by simp [Job.live, Job.retired, Job.exhaust]⟩
    · obtain ⟨-, -, hkey, hlive, -⟩ := spent_row hwf hinv h hcontinued hrow'
      exact ⟨hkey, hlive⟩

private theorem fresh_exec (hle : s'.db.nextId ≤ id) :
    (l.note s e s').root id = id ∧ (l.note s e s').continued id = false := by
  have hold := hinv.fresh id ((State.db_ok hwf h).1.trans hle)
  rcases continues_cases hwf h with ⟨hnone, -⟩ | ⟨old, k, now, job, runAt, traceparent, progress,
    a, -, hsome, hc⟩
  · simpa only [Lineage.note, hnone] using hold
  · have hnext : id ≠ s.db.nextId := by
      rintro rfl
      rw [hc.nextId] at hle
      exact absurd hle (Nat.not_succ_le_self _)
    have hid : id ≠ old := by
      rintro rfl
      exact absurd ((State.db_ok hwf h).1.trans hle) (not_le.mpr (hc.id_lt hwf))
    simpa only [Lineage.note, hsome, Function.update_of_ne hnext, Function.update_of_ne hid] using hold

private theorem root_le_exec (id : JobId) : (l.note s e s').root id ≤ id := by
  rcases continues_cases hwf h with ⟨hnone, -⟩ | ⟨old, k, now, job, runAt, traceparent, progress,
    a, -, hsome, hc⟩
  · simpa only [Lineage.note, hnone] using hinv.root_le id
  · simp only [Lineage.note, hsome, Function.update_apply]
    split
    · rename_i hid
      rw [hid]
      exact (hinv.root_le old).trans (hc.id_lt hwf).le
    · exact hinv.root_le id

private theorem tips_exec {id' : JobId} (hid : (l.note s e s').continued id = false)
    (hid' : (l.note s e s').continued id' = false)
    (hroot : (l.note s e s').root id = (l.note s e s').root id') : id = id' := by
  rcases continues_cases hwf h with ⟨hnone, -⟩ | ⟨old, k, now, job, runAt, traceparent, progress,
    a, -, hsome, hc⟩
  · simp only [Lineage.note, hnone] at hid hid' hroot
    exact hinv.tips id id' hid hid' hroot
  simp only [Lineage.note, hsome] at hid hid' hroot
  -- A row other than the two of this step has neither of their roots.
  have hother : ∀ i, Function.update l.continued old true i = false → i ≠ old ∧
      l.continued i = false := by
    intro i hi
    rw [Function.update_apply] at hi
    split at hi
    · cases hi
    · exact ⟨‹_›, hi⟩
  obtain ⟨hne, hfree⟩ := hother id hid
  obtain ⟨hne', hfree'⟩ := hother id' hid'
  have hold := not_continued hinv hc
  rw [Function.update_apply, Function.update_apply] at hroot
  split at hroot <;> split at hroot
  · rename_i hi hi'
    rw [hi, hi']
  · exact absurd (hinv.tips old id' hold hfree' hroot) hne'.symm
  · exact absurd (hinv.tips id old hfree hold hroot) hne
  · exact hinv.tips id id' hfree hfree' hroot

include hdist

/-- No transaction opens on a continued row: whoever holds it has continued. -/
private theorem closed_exec (hcontinued : (l.note s e s').continued id = true) :
    s'.txs.get? id = none := by
  have hold : l.continued id = true → s'.txs.get? id = none := by
    intro hold
    have hchange := State.tx_change h id
    rw [hinv.closed id hold] at hchange
    generalize hafter : s'.txs.get? id = after at hchange
    have hopen : ∀ {k : ℕ} {a : Attempt} {job : Job}, s.attempts.get? k = some a → a.job.id = id →
        s.db.owned a.job = some job → a.ended.any (·.isContinued) = true := by
      intro k a job ha hid hown
      exact hinv.ended id job k a hold (hid ▸ (owned_eq_some_iff.mp hown).1) ha hid
        (lock_of_owned hwf hdist ha hown)
    cases hchange with
    | same => rfl
    | waitBegun he ha hid hown hcall hcache hended => simp [hopen ha hid hown] at hended
    | continueBegun he ha hid hown hended => simpa [hended] using hopen ha hid hown
  rcases continues_cases hwf h with ⟨hnone, -⟩ | ⟨old, k, now, job, runAt, traceparent, progress,
    a, -, hsome, hc⟩
  · simp only [Lineage.note, hnone] at hcontinued
    exact hold hcontinued
  · simp only [Lineage.note, hsome, Function.update_apply] at hcontinued
    split at hcontinued
    · rename_i hid
      simp [hc.txs, hid, Table.get?_erase]
    · exact hold hcontinued

private theorem ended_exec {k : ℕ} {a' : Attempt}
    (hcontinued : (l.note s e s').continued id = true) (hrow' : s'.db.jobs.get? id = some job')
    (ha' : s'.attempts.get? k = some a') (hid : a'.job.id = id) (hlock : job'.lock = some a'.lock) :
    a'.ended.any (·.isContinued) = true := by
  have hold : l.continued id = true → a'.ended.any (·.isContinued) = true := by
    intro hold
    obtain ⟨job, hrow, -, -, hsame | hnone⟩ := spent_row hwf hinv h hold hrow'
    · rcases State.attempt_origin h ha' with ⟨a, ha, hjob, hgiven⟩ |
        ⟨now, pool, id', jobOutcomes, row, he, -, -, -, hjob⟩
      · have hended := hinv.ended id job k a hold hrow ha (by rw [← hjob, hid])
          (by rw [← hsame, hlock, hgiven])
        exact isContinued_persists h ha ha' (hwf.attemptBelow k a ha).1 hended
      · obtain rfl : id' = id := by rw [← hid, hjob]; rfl
        subst he
        obtain ⟨row', hrow₁, hclaim, -⟩ := State.claim_cases h
        have hlive := (hinv.spent _ _ hold hrow₁).2
        simp [claimable, Job.available, hlive] at hclaim
    · simp [hnone] at hlock
  rcases continues_cases hwf h with ⟨hnone, -⟩ | ⟨old, k', now, job, runAt, traceparent, progress,
    a, -, hsome, hc⟩
  · simp only [Lineage.note, hnone] at hcontinued
    exact hold hcontinued
  simp only [Lineage.note, hsome, Function.update_apply] at hcontinued
  split at hcontinued
  · rename_i hold'
    rw [hc.rows, if_neg (by rw [hold']; exact (hc.id_lt hwf).ne), if_pos hold'] at hrow'
    split at hrow'
    · cases hrow'
    obtain rfl := Option.some.inj hrow'
    by_cases hk : k = k'
    · simp only [hc.attempts, hk, Table.get?_insert, if_true, Option.some.injEq] at ha'
      subst ha'
      rfl
    · -- Another attempt with the row's lock would be a second holder.
      rw [hc.attempts, Table.get?_insert, if_neg hk] at ha'
      obtain ⟨-, row, hrow, hown⟩ := State.owned_of_tx hwf hc.tx hc.attempt
      obtain rfl : row = job := Option.some.inj (hrow.symm.trans hc.row)
      have hgiven := lock_of_owned hwf hdist hc.attempt hown
      rw [Job.retired_lock, hgiven, Option.some.injEq] at hlock
      exact absurd (holds_unique hwf hdist ha' hc.attempt (by rw [hid, hc.own, hold'])
        hlock.symm) hk
  · exact hold hcontinued

omit hdist in
private theorem envelope_exec (hdist' : DistinctLocks s') {k : ℕ} {a' : Attempt}
    (ha' : s'.attempts.get? k = some a') (hrow' : s'.db.jobs.get? a'.job.id = some job')
    (hlock : job'.lock = some a'.lock)
    (henv : Payload.isPayloadEnvelope a'.job.payload = true) :
    Payload.isPayloadEnvelope job'.payload = true ∧
      Payload.cleanPayload job'.payload = Payload.cleanPayload a'.job.payload := by
  rcases holder_cases hwf hdist' h ha' hrow' hlock with
    ⟨now, pool, jobOutcomes, job, -, -, -, -, rfl, hjob, -⟩ | ⟨a, job, ha, hjob, -, hrow, hgiven⟩
  · rw [hjob] at henv ⊢
    exact ⟨henv, rfl⟩
  · rw [hjob] at hrow' henv ⊢
    have hpatched := patched_of_locked hwf h hrow hrow' (by simp [hgiven])
    obtain ⟨hrowEnv, hclean⟩ := hinv.envelope k a job ha hrow hgiven henv
    exact ⟨hpatched.isPayloadEnvelope hrowEnv, (hpatched.cleanPayload hrowEnv).trans hclean⟩

omit hdist in
/-- Only a handler that runs, on an envelope, opens a transaction. -/
private theorem begun_exec {tx' : Tx} {a' : Attempt} (htx' : s'.txs.get? id = some tx')
    (ha' : s'.attempts.get? tx'.attempt = some a') :
    Payload.isPayloadEnvelope a'.job.payload = true := by
  have hkept : ∀ a, s.attempts.get? tx'.attempt = some a →
      Payload.isPayloadEnvelope a.job.payload = true →
      Payload.isPayloadEnvelope a'.job.payload = true := by
    intro a ha henv
    obtain ⟨b, hb, hjob, -⟩ := State.attempt_persists hwf h ha
    obtain rfl : b = a' := Option.some.inj (hb.symm.trans ha')
    rw [hjob, henv]
  have hold : ∀ tx, s.txs.get? id = some tx → tx'.attempt = tx.attempt →
      Payload.isPayloadEnvelope a'.job.payload = true := by
    intro tx htx hsame
    obtain ⟨a, -, ha, -⟩ := hwf.tx id tx htx
    exact hkept a (hsame ▸ ha) (hinv.begun id tx a htx ha)
  have hchange := State.tx_change h id
  rw [htx'] at hchange
  generalize hbefore : s.txs.get? id = before at hchange
  cases hchange with
  | same => exact hold tx' hbefore rfl
  | lookedUp => exact hold _ hbefore rfl
  | waitBegun he ha hid hown hcall =>
    simp only [State.callable, Bool.and_eq_true] at hcall
    exact hkept _ ha hcall.1
  | continueBegun he ha hid hown hended henv => exact hkept _ ha henv

omit hdist in
private theorem children_exec {key : WaitKey} {wait' : Wait}
    (hget' : s'.db.waits.get? key = some wait') : wait'.child < s'.db.nextId := by
  rcases wait_cases hwf h hget' with ⟨wait, hget, -, hchild⟩ | ⟨hlt, -⟩
  · rw [hchild]
    exact (hinv.children key wait hget).trans_le (State.db_ok hwf h).1
  · exact hlt

omit hdist in
private theorem marked_exec {key : WaitKey} {wait' : Wait}
    (hget' : s'.db.waits.get? key = some wait') (hpending : wait'.pending = true)
    (hrow' : s'.db.jobs.get? wait'.child = some job') (hobj : job'.payload.isObject = true)
    (hdropped : (l.note s e s').dropped key = false) : Payload.waited job'.payload = true := by
  rcases wait_cases hwf h hget' with ⟨wait, hget, hbefore, hchild⟩ | ⟨-, hmarked⟩
  · simp only [Lineage.note, hget, Option.any_some, Bool.or_eq_false_iff] at hdropped
    rw [hchild] at hrow'
    obtain ⟨job, hrow⟩ := row_of_below hwf h (hinv.children key wait hget) hrow'
    have hpatched := patched_of_row hwf h hrow hrow' hdropped.2
    have hobj₀ := hpatched.isObject ▸ hobj
    exact hpatched.waited_kept hobj₀
      (hinv.marked key wait job hget (hbefore hpending) hrow hobj₀ hdropped.1)
  · exact hmarked job' hrow' hobj

theorem Lineage.inv_exec (hdist' : DistinctLocks s') : Lineage.Inv s' (l.note s e s') where
  fresh _ hle := fresh_exec hwf hinv h hle
  root_le := root_le_exec hwf hinv h
  tips _ _ := tips_exec hwf hinv h
  spent _ _ := spent_exec hwf hinv h
  closed _ := closed_exec hwf hdist hinv h
  ended _ _ _ _ := ended_exec hwf hdist hinv h
  envelope _ _ _ ha hrow hlock henv := envelope_exec hwf hinv h hdist' ha hrow hlock henv
  begun _ _ _ := begun_exec hwf hinv h
  children _ _ := children_exec hwf hinv h
  marked _ _ _ := marked_exec hwf hinv h

end

theorem Lineage.inv_reachable {p : State × Lineage}
    (hreach : lineage.ReachableWith (fun p e => LockTimesDiffer p.1 e) p) :
    Wf p.1 ∧ DistinctLocks p.1 ∧ Lineage.Inv p.1 p.2 := by
  refine hreach.invariant (I := fun p => Wf p.1 ∧ DistinctLocks p.1 ∧ Lineage.Inv p.1 p.2) ?_ ?_
  · rintro ⟨s, l⟩ ⟨hs, hl⟩
    obtain rfl : s = State.initial := hs
    obtain rfl : l = Lineage.start := hl
    refine ⟨State.wf_initial, fun _ _ _ _ h => (by cases h), ?_⟩
    exact {
      fresh := fun _ _ => ⟨rfl, rfl⟩
      root_le := fun _ => le_rfl
      tips := fun _ _ _ _ h => h
      spent := fun _ _ h => (by cases h)
      closed := fun _ h => (by cases h)
      ended := fun _ _ _ _ h => (by cases h)
      envelope := fun _ _ _ h => (by cases h)
      begun := fun _ _ _ h => (by cases h)
      children := fun _ _ h => (by cases h)
      marked := fun _ _ _ h => (by cases h) }
  · rintro ⟨s, l⟩ e ⟨s', l'⟩ - ⟨hwf, hdist, hinv⟩ hcond hstep
    obtain ⟨hstep, hl'⟩ := TransitionSystem.observe_step_iff.mp hstep
    obtain ⟨r, hexec⟩ := system_step_iff.mp hstep
    simp only at hl'
    subst hl'
    have hdist' := distinctLocks_exec hdist hcond hexec
    exact ⟨State.wf_exec hwf hexec, hdist', Lineage.inv_exec hwf hdist hinv hexec hdist'⟩

/-! ## One live run -/

/-- What a continuation takes over from the row, and from the progress in memory. -/
structure TakesOver (job job' : Job) (progress : Option Json) : Prop where
  identifier : job'.identifier = job.identifier
  input : Payload.cleanPayload job'.payload = Payload.cleanPayload job.payload
  queueName : job'.queueName = job.queueName
  priority : job'.priority = job.priority
  flags : job'.flags = job.flags
  maxAttempts : job'.maxAttempts = job.maxAttempts
  key : job'.key = job.key
  waited : Payload.waited job'.payload = Payload.waited job.payload
  steps : ∀ id, Payload.extractStepCache job'.payload id = Payload.extractStepCache job.payload id
  progress : job'.payload.get? "progress" = (progress <|> job.payload.get? "progress")
  attempts : job'.attempts = 0
  cron : job'.payload.get? "_cron" = none

/-- What a committed continuation leaves of `id`, and who waits for whom afterwards. -/
structure Handover (s : State) (l : Lineage) (s' : State) (id next : JobId) (job : Job)
    (progress : Option Json) : Prop where
  old : ∀ job, s'.db.jobs.get? id = some job → job.live = false
  row : ∃ job', s'.db.jobs.get? next = some job' ∧ TakesOver job job' progress
  waits : ∀ key, s'.db.waits.get? key = (s.db.waits.get? key).map fun wait =>
    if Payload.waited job.payload = true ∧ wait.child = id ∧ wait.pending = true then
      { wait with child := next }
    else wait
  marked : ∀ key wait, s.db.waits.get? key = some wait → wait.child = id → wait.pending = true →
    l.dropped key = false → Payload.waited job.payload = true

private theorem takesOver (now : Time) (runAt : Option Time) (traceparent : Option String)
    (progress : Option Json) (hobj : job.payload.isObject = true) :
    TakesOver job (newJob now (continueSpec job runAt traceparent progress)) progress where
  identifier := rfl
  input := Payload.cleanPayload_congr fun key hkey =>
    Payload.get?_continueEnvelope key hobj _ _ (hkey.ne (by decide)) (hkey.ne (by decide))
      (hkey.ne (by decide))
  queueName := rfl
  priority := rfl
  flags := flagColumn_keys job.flags
  maxAttempts := rfl
  key := rfl
  waited := Payload.waited_continueEnvelope progress traceparent hobj
  steps _ := Payload.extractStepCache_continueEnvelope hobj progress traceparent
  progress := by
    simp only [newJob, continueSpec, Payload.continueEnvelope]
    cases progress <;> cases traceparent <;> simp [Json.get?_set, Json.get?_remove, hobj]
  attempts := rfl
  cron := by
    simp only [newJob, continueSpec, Payload.continueEnvelope]
    cases progress <;> cases traceparent <;> simp [Json.get?_set, Json.get?_remove, hobj]

variable {k : ℕ} {now : Time} {runAt : Option Time} {traceparent : Option String}
  {progress : Option Json} {a : Attempt}

/-- `ctx.continue()` reads the row under its lock, and the progress in memory. -/
private theorem continue_begun (ha : s.attempts.get? k = some a)
    (h : s.continueBegin now k runAt traceparent = some (s', .done)) :
    s'.db = s.db ∧ ∃ job, s.db.jobs.get? a.job.id = some job ∧
      s'.txs.get? a.job.id = some ⟨k, now, .continuing job runAt traceparent a.progress⟩ := by
  obtain ⟨a', ha', -, -, -, ⟨-, hr⟩ | ⟨-, ⟨-, hr, -⟩ | ⟨job, hown, -, rfl⟩⟩⟩ :=
    State.continueBegin_cases h
  · cases hr
  · cases hr
  · obtain rfl : a' = a := Option.some.inj (ha'.symm.trans ha)
    exact ⟨rfl, job, (owned_eq_some_iff.mp hown).1, by simp⟩

/-- The commit of a continuation. -/
theorem handover (hwf : Wf s) (hdist : DistinctLocks s) (hinv : Lineage.Inv s l)
    (hc : Continues s id s' r k now job runAt traceparent progress a) :
    Handover s l s' id s.db.nextId job progress := by
  obtain ⟨-, row, hrow, hown⟩ := State.owned_of_tx hwf hc.tx hc.attempt
  obtain rfl : row = job := Option.some.inj (hrow.symm.trans hc.row)
  obtain ⟨henv, -⟩ := hinv.envelope k a row hc.attempt (hc.own ▸ hrow)
    (lock_of_owned hwf hdist hc.attempt hown) (hinv.begun id _ a hc.tx hc.attempt)
  have hobj := Payload.isObject_of_isPayloadEnvelope henv
  refine ⟨fun old hold => ?_, ⟨_, by rw [hc.rows, if_pos rfl], takesOver now runAt traceparent
    progress hobj⟩, fun key => ?_, fun key wait hget hchild hpending hdropped => ?_⟩
  · rw [hc.rows, if_neg (hc.id_lt hwf).ne, if_pos rfl] at hold
    split at hold
    · cases hold
    · obtain rfl := Option.some.inj hold
      simp [Job.live, Job.retired, Job.exhaust]
  · rw [hc.waits]
    split
    · rename_i hwaited
      rw [get?_retargetWaits]
      simp only [hwaited, true_and]
    · rename_i hwaited
      simp [hwaited]
  · exact hinv.marked key wait row hget hpending (hchild ▸ hrow) hobj hdropped

theorem Handover.moved {progress : Option Json} {next : JobId} (h : Handover s l s' id next job progress)
    {key : WaitKey} {wait : Wait} (hget : s.db.waits.get? key = some wait) (hchild : wait.child = id)
    (hpending : wait.pending = true) (hdropped : l.dropped key = false) :
    s'.db.waits.get? key = some { wait with child := next } := by
  have hwaited := h.marked key wait hget hchild hpending hdropped
  rw [h.waits, hget, Option.map_some, if_pos ⟨hwaited, hchild, hpending⟩]

/--
One row of a logical job can run again. A continuation that does not commit leaves its row as
it read it; one that commits hands everything over, and the unresolved waits on the old row
move along if it carries the mark, which it does unless its payload was replaced since a wait
was created.
-/
theorem one_live_run (hreach : lineage.ReachableWith (fun p e => LockTimesDiffer p.1 e) (s, l)) :
    (∀ id id' job job', l.root id = l.root id' → s.db.jobs.get? id = some job →
      s.db.jobs.get? id' = some job' → job.live = true → job'.live = true → id = id') ∧
    (∀ k a now runAt traceparent s', s.attempts.get? k = some a →
      s.exec (.continueBegin now k runAt traceparent) = some (s', .done) →
      s'.db = s.db ∧ ∃ job, s.db.jobs.get? a.job.id = some job ∧
        s'.txs.get? a.job.id = some ⟨k, now, .continuing job runAt traceparent a.progress⟩) ∧
    ∀ id k now job runAt traceparent progress,
      s.txs.get? id = some ⟨k, now, .continuing job runAt traceparent progress⟩ →
      s.db.jobs.get? id = some job ∧
      (∀ s' r, s.exec (.rollback id) = some (s', r) → s'.db = s.db) ∧
      ∀ s' r, s.exec (.continueCommit id) = some (s', r) →
        r = .refused ∧ s'.db = s.db ∨
        ∃ next, r = .continued next ∧ (l.note s (.continueCommit id) s').root next = l.root id ∧
          Handover s l s' id next job progress := by
  obtain ⟨hwf, hdist, hinv⟩ := Lineage.inv_reachable hreach
  refine ⟨fun id id' job job' hroot hrow hrow' hlive hlive' => ?_,
    fun k a now runAt traceparent s' ha h => continue_begun ha h,
    fun id k now job runAt traceparent progress htx => ⟨?_, fun s' r h => ?_, fun s' r h => ?_⟩⟩
  · have htip : ∀ i row, s.db.jobs.get? i = some row → row.live = true → l.continued i = false := by
      intro i row hget hrowLive
      by_contra hne
      simp [(hinv.spent i row (by simpa using hne) hget).2] at hrowLive
    exact hinv.tips id id' (htip id job hrow hlive) (htip id' job' hrow' hlive') hroot
  · obtain ⟨-, row, -, -, hrow, -, -, hstage, -⟩ := hwf.tx id _ htx
    rw [hrow, hstage]
  · obtain ⟨-, -, rfl⟩ := State.rollback_cases h
    rfl
  · by_cases hr : r = .refused
    · obtain ⟨_, _, _, _, _, _, _, -, -, -, ⟨rfl, -⟩ | ⟨_, _, -, rfl, -⟩⟩ :=
        State.continueCommit_cases h
      · exact .inl ⟨hr, rfl⟩
      · cases hr
    · obtain ⟨a, hc⟩ := continues_of_tx hwf h hr htx
      refine .inr ⟨s.db.nextId, hc.reply, ?_, handover hwf hdist hinv hc⟩
      have hsome : s.continues (.continueCommit id) s' = some (id, s.db.nextId) := by
        simp [State.continues, hc.nextId]
      simp [Lineage.note, hsome]

/-! ## A continued child -/

namespace LineageTrace

def spec (key : Option String) : JobSpec :=
  ⟨"import", Payload.injectTraceContext none none, none, none, none, key, none, none, .replace⟩

def call (waitId : String) (input : Json) : WaitCall := ⟨waitId, "page", [some input], none, by simp⟩

def options (key : Option String) : ChildOptions := ⟨none, none, none, 25, key, none, none, .replace⟩

/-- A job continues. -/
def continued : List Event :=
  [.addJob 0 (spec none), .claim 0 "p" 1 false, .continueBegin 0 0 none none, .continueCommit 1]

/-- A producer adds the key of a waited child again, and the child continues. -/
def readded : List Event :=
  [.addJob 0 (spec none), .claim 0 "p" 1 false, .waitBegin 0 0 (call "a" .null), .waitLookup 1,
    .waitCommit 1 [.add (options (some "child"))], .addJob 0 (spec (some "child")),
    .claim 0 "q" 2 false, .continueBegin 0 1 none none, .continueCommit 2]

/-- Three claims by one pool at one instant; the second attempt is stale when the third continues. -/
def sameInstant : List Event :=
  [.addJob 0 (spec none), .claim 0 "p" 1 false, .waitBegin 0 0 (call "a" .null), .waitLookup 1,
    .waitCommit 1 [.add (options none)], .failJob 0 "p" 1 "waiting", .claim 0 "q" 2 false,
    .settle 0 1 ⟨none, some (.ok none), .delete⟩ fun _ => true, .claim 0 "p" 1 false,
    .failJob 0 "p" 1 "failed", .sweepWake 0, .claim 0 "p" 1 false, .continueBegin 0 3 none none,
    .continueCommit 1, .waitBegin 0 2 (call "b" .null), .waitLookup 1,
    .waitCommit 1 [.add (options none)]]

end LineageTrace

theorem one_live_run_continued : ∃ p : State × Lineage, p.2.root 2 = p.2.root 1 ∧
    (p.1.db.jobs.get? 1).isSome ∧ (p.1.db.jobs.get? 2).isSome ∧
    ∀ job job', p.1.db.jobs.get? 1 = some job → p.1.db.jobs.get? 2 = some job' →
      ¬ (job.live = true ∧ job'.live = true) := by
  have hinit : lineage.Init (State.initial, .start) := ⟨rfl, rfl⟩
  obtain ⟨p, hreach, hp⟩ := TransitionSystem.exists_reachableWith_of_runWith
    LineageTrace.continued (fun p => p.2.root 2 = p.2.root 1 && (p.1.db.jobs.get? 1).isSome &&
      (p.1.db.jobs.get? 2).isSome)
    (fun (p : State × Lineage) e (hc : lockTimesDiffer p.1 e = true) =>
      (hc : LockTimesDiffer p.1 e)) hinit (by decide)
  simp only [Bool.and_eq_true, decide_eq_true_eq] at hp
  obtain ⟨⟨hroot, hold⟩, hnew⟩ := hp
  refine ⟨p, hroot, hold, hnew, fun job job' hrow hrow' hlive => ?_⟩
  exact absurd ((one_live_run hreach).1 1 2 job job' hroot.symm hrow hrow' hlive.1 hlive.2) (by decide)

/--
The wait of a re-added child stays at its old row, and two attempts that share a lock leave two
live rows of one logical job.
-/
theorem continuation_leaves_wait :
    (∃ p wait, lineage.ReachableWith (fun p e => LockTimesDiffer p.1 e) p ∧
      p.2.continued 2 = true ∧ p.1.db.waits.get? ((1, "a"), 0) = some wait ∧
      wait.pending = true ∧ wait.child = 2) ∧
    ∃ p job job', lineage.Reachable p ∧ p.2.root 1 = p.2.root 3 ∧
      p.1.db.jobs.get? 1 = some job ∧ p.1.db.jobs.get? 3 = some job' ∧
      job.live = true ∧ job'.live = true := by
  have hinit : lineage.Init (State.initial, .start) := ⟨rfl, rfl⟩
  constructor
  · obtain ⟨p, hreach, hp⟩ := TransitionSystem.exists_reachableWith_of_runWith
      LineageTrace.readded (fun p => p.2.continued 2 &&
        (p.1.db.waits.get? ((1, "a"), 0)).any fun wait => wait.pending && wait.child = 2)
      (fun (p : State × Lineage) e (hc : lockTimesDiffer p.1 e = true) =>
      (hc : LockTimesDiffer p.1 e)) hinit (by decide)
    simp only [Bool.and_eq_true] at hp
    obtain ⟨wait, hwait, hchild⟩ := (Option.any_eq_true _ _).mp hp.2
    simp only [Bool.and_eq_true, decide_eq_true_eq] at hchild
    exact ⟨p, wait, hreach, hp.1, hwait, hchild.1, hchild.2⟩
  · obtain ⟨p, hreach, hp⟩ := TransitionSystem.exists_reachable_of_run LineageTrace.sameInstant
      (fun p => p.2.root 1 = p.2.root 3 && ((p.1.db.jobs.get? 1).any Job.live &&
        (p.1.db.jobs.get? 3).any Job.live)) hinit (by decide)
    simp only [Bool.and_eq_true, decide_eq_true_eq] at hp
    obtain ⟨job, hrow, hlive⟩ := (Option.any_eq_true _ _).mp hp.2.1
    obtain ⟨job', hrow', hlive'⟩ := (Option.any_eq_true _ _).mp hp.2.2
    exact ⟨p, job, job', hreach, hp.1, hrow, hrow', hlive, hlive'⟩

end BetterGraphileWorker
