-- SUMMARY: Checkpoints: what a step or a wait has resolved with is in the envelope of every later run, unless it was written after the continuation.
import BetterGraphileWorker.Lineage

/-!
# Checkpoints

A step resolves from the store of its attempt, which a claim fills from the envelope and
a committed write extends. The acknowledged checkpoints of a logical job are those that
some store has held since its payload was last replaced. The ids of the steps have no
unpaired surrogate; what is stored for the others is in the envelope's own module.
-/

namespace BetterGraphileWorker

/-- The acknowledged checkpoints of each logical job, by its first row. -/
abbrev Acks := JobId → String → Option StepCacheEntry

/-- The store that a step fills, and the ids under which it does. -/
def State.filling (s : State) : Event → Option (ℕ × (String → Bool))
  | .claim .. => some (s.nextAttempt, fun _ => true)
  | .checkpoint k id .. => some (k, fun i => i = id)
  | .waitCommit id _ =>
    match s.txs.get? id with
    | some ⟨k, _, .waitLooked call _ _⟩ => some (k, fun i => i = call.waitId)
    | _ => none
  | _ => none

/--
What the step makes known about a logical job; `late` counts the steps of attempts that have
already continued their row as well.
-/
def State.acknowledges (s : State) (l : Lineage) (late : Bool) (e : Event) (s' : State) : Acks :=
  fun root i =>
    (s.filling e).bind fun fill =>
      (s'.attempts.get? fill.1).bind fun a =>
        if l.root a.job.id = root ∧ (late ∨ l.continued a.job.id = false) ∧ fill.2 i then a.cache i
        else none

/-- The step replaces the payload of the logical job. -/
def State.replacesRoot (s : State) (l : Lineage) (s' : State) (root : JobId) : Bool :=
  s.db.jobs.any fun id _ => s.replaces s' id && l.root id = root

def Acks.note (late : Bool) (p : State × Lineage) (e : Event) (p' : State × Lineage)
    (acks : Acks) : Acks :=
  fun root i =>
    if p.1.replacesRoot p.2 p'.1 root then none
    else p.1.acknowledges p.2 late e p'.1 root i <|> acks root i

/-- The system with its lineage and the acknowledged checkpoints. -/
def acknowledged (late : Bool) : TransitionSystem ((State × Lineage) × Acks) Event :=
  lineage.observe (fun _ _ => none) (Acks.note late)

/-- A step's write that reaches the row after its attempt has continued it. -/
def lateCheckpoint (p : State × Lineage) : Event → Bool
  | .checkpoint k _ _ true => (p.1.attempts.get? k).any fun a =>
      p.2.continued a.job.id && (p.1.db.owned a.job).isSome
  | _ => false

/-! ## Stores -/

variable {s s' : State} {e : Event} {r : Reply} {id : JobId} {l : Lineage} {acks : Acks}
  {late : Bool} {job job' : Job} {k : ℕ} {a a' : Attempt} {i : String} {value : StepCacheEntry}

/-- A store never loses or changes an entry. -/
theorem cache_kept (hwf : Wf s) (h : s.exec e = some (s', r)) (ha : s.attempts.get? k = some a)
    (ha' : s'.attempts.get? k = some a') (hcache : a.cache i = some value) :
    a'.cache i = some value := by
  have hchange := State.attempt_change h k
  rw [ha, ha'] at hchange
  have hupdate : ∀ {j : String} {new : Option StepCacheEntry}, a.cache j = none →
      Function.update a.cache j new i = some value := by
    intro j new hnone
    rw [Function.update_apply, if_neg (by rintro rfl; simp [hnone] at hcache), hcache]
  cases hchange with
  | same | progressed | called | continued => exact hcache
  | started o he hk => exact absurd (hwf.attemptBelow k a ha).1 (by simp [hk])
  | checkpointed _ he hr hown hfree hnone => exact hupdate hnone
  | @left _ _ _ _ _ _ _ entered he htx hr =>
    obtain ⟨b, -, hb, -, -, -, -, hnone, -⟩ := hwf.tx _ _ htx
    obtain rfl : b = a := Option.some.inj (hb.symm.trans ha)
    cases entered with
    | finished => exact hupdate hnone
    | suspended => exact hcache

/-- Everything that the commit of a finished wait does. -/
structure Finishes (s : State) (id : JobId) (s' : State) (k : ℕ) (now : Time) (call : WaitCall)
    (suspended : Bool) (group : FoundGroup) (a : Attempt) (job : Job)
    (checkpoint : WaitCheckpoint) : Prop where
  tx : s.txs.get? id = some ⟨k, now, .waitLooked call suspended (some group)⟩
  attempt : s.attempts.get? k = some a
  own : a.job.id = id
  row : s.db.jobs.get? id = some job
  leave : group.remaining = 0 ∨ group.expired = true
  results : checkpoint = waitCheckpoint (group.remaining = 0) (s.db.waitsOf (id, call.waitId))
  row' : s'.db.jobs.get? id = some (job.setPayload (Payload.setStep job.payload call.waitId
    (StepCacheEntry.output checkpoint.toJson).toJson))
  attempts : s'.attempts = s.attempts.insert k { a with
    cache := Function.update a.cache call.waitId (some (.output checkpoint.toJson)) }

theorem finishes_of_commit (hwf : Wf s) {prepared : List Prepared} {checkpoint : WaitCheckpoint}
    (h : s.waitCommit id prepared = some (s', .entered (.finished checkpoint))) :
    ∃ k now call suspended group a job,
      Finishes s id s' k now call suspended group a job checkpoint := by
  obtain ⟨k, now, call, suspended, found, a, htx, ha, -, ⟨-, hr, -⟩ | ⟨db, entered, hok, hr, rfl⟩⟩ :=
    State.waitCommit_cases h
  · cases hr
  obtain rfl : entered = .finished checkpoint := by simpa using hr.symm
  obtain ⟨hid, job, hrow, hown⟩ := State.owned_of_tx hwf htx ha
  cases found with
  | none =>
    rw [enterWait_missing] at hok
    cases hok
  | some group =>
    obtain ⟨checkpoint', hleave, hentered, hfin⟩ | ⟨-, -, hentered, -⟩ := enterWait_found hok
    · obtain rfl : checkpoint = checkpoint' := by simpa using hentered
      obtain ⟨hcheckpoint, db₁, hwrite, rfl⟩ := finishWait_ok hfin
      refine ⟨k, now, call, suspended, group, a, job, htx, ha, hid, hrow, hleave,
        by rw [hcheckpoint, hid], ?_, rfl⟩
      rw [deleteGroup_jobs, get?_patchEnvelope hwrite, if_pos hid.symm, hrow, Option.map_some]
    · cases hentered

/-- The row and the store after a step filled a store that the claim did not. -/
structure Writes (s s' : State) (k : ℕ) (i : String) (value : StepCacheEntry) (a' a : Attempt)
    (job : Job) : Prop where
  attempt : s.attempts.get? k = some a
  same : a'.job = a.job
  lock : a'.lock = a.lock
  new : a.cache i = none
  envelope : Payload.isPayloadEnvelope a.job.payload = true
  owned : s.db.owned a.job = some job
  row : s'.db.jobs.get? a.job.id =
    some (job.setPayload (Payload.setStep job.payload i value.toJson))

/-- An entry that a step fills in comes from the claimed envelope or is written to the row. -/
theorem filling_cases (hwf : Wf s) (h : s.exec e = some (s', r)) {ids : String → Bool}
    (hfill : s.filling e = some (k, ids)) (hids : ids i = true)
    (ha' : s'.attempts.get? k = some a') (hcache : a'.cache i = some value) :
    (∃ now pool jobOutcomes job, e = .claim now pool a'.job.id jobOutcomes ∧
      k = s.nextAttempt ∧ s.db.jobs.get? a'.job.id = some job ∧ claimable now s.db job = true ∧
      s'.db.jobs.get? a'.job.id = some (job.lockFor ⟨pool, now⟩) ∧
      a'.cache = Payload.extractStepCache job.payload) ∨
    ∃ a job, Writes s s' k i value a' a job ∧
      ((∃ output, e = .checkpoint k i output true) ∨ s.txs.get? a.job.id ≠ none) := by
  cases e with
  | claim now pool id jobOutcomes =>
    simp only [State.filling, Option.some.injEq, Prod.mk.injEq] at hfill
    obtain ⟨rfl, -⟩ := hfill
    obtain ⟨job, hrow, hclaim, -, -, -, rfl⟩ := State.claim_cases h
    simp only [Table.get?_insert_self, Option.some.injEq] at ha'
    subst ha'
    exact .inl ⟨now, pool, jobOutcomes, job, rfl, rfl, hrow, hclaim, by simp [HelpersJob.ofJob, hrow],
      rfl⟩
  | checkpoint k' stepId output resolved =>
    simp only [State.filling, Option.some.injEq, Prod.mk.injEq] at hfill
    obtain ⟨rfl, rfl⟩ := hfill
    obtain rfl : i = stepId := by simpa using hids
    obtain ⟨a, ha, hcall, hnone, -, ⟨rfl, -⟩ | ⟨db, hok, -, rfl⟩⟩ := State.checkpoint_cases h
    · rw [Option.some.inj (ha'.symm.trans ha), hnone] at hcache
      cases hcache
    simp only [Table.get?_insert_self, Option.some.injEq] at ha'
    cases resolved with
    | false =>
      rw [← ha'] at hcache
      simp [hnone] at hcache
    | true =>
      subst ha'
      obtain rfl : BetterGraphileWorker.entry output = value := by simpa using hcache
      obtain ⟨job, hown, -⟩ := patchEnvelope_ok hok
      simp only [State.callable, Bool.and_eq_true] at hcall
      refine .inr ⟨a, job, ⟨ha, rfl, rfl, hnone, hcall.1, hown, ?_⟩, .inl ⟨output, rfl⟩⟩
      rw [get?_patchEnvelope hok, if_pos rfl, (owned_eq_some_iff.mp hown).1, Option.map_some]
  | waitCommit id prepared =>
    simp only [State.filling] at hfill
    split at hfill
    · rename_i k₁ now call suspended found htx
      simp only [Option.some.injEq, Prod.mk.injEq] at hfill
      obtain ⟨rfl, rfl⟩ := hfill
      obtain rfl : i = call.waitId := by simpa using hids
      obtain ⟨b, -, hb, -, -, -, -, hnone, -, -, hcall, -⟩ := hwf.tx id _ htx
      simp only [State.callable, Bool.and_eq_true] at hcall
      obtain ⟨k₂, now₂, call₂, suspended₂, found₂, a, htx₂, ha, -, ⟨rfl, -⟩ |
        ⟨db, entered, -, hr, hs'⟩⟩ := State.waitCommit_cases h
      · rw [Option.some.inj (ha'.symm.trans hb), hnone] at hcache
        cases hcache
      have heq := htx.symm.trans htx₂
      simp only [Option.some.injEq, Tx.mk.injEq, TxStage.waitLooked.injEq] at heq
      obtain ⟨rfl, rfl, rfl, rfl, rfl⟩ := heq
      obtain rfl : b = a := Option.some.inj (hb.symm.trans ha)
      rw [hs', Table.get?_insert_self, Option.some.injEq] at ha'
      subst ha'
      cases entered with
      | suspended => simp [State.Attempt.leave, hnone] at hcache
      | finished checkpoint =>
        subst hr
        obtain ⟨k₃, now₃, call₃, suspended₃, group, b₃, job, hf⟩ := finishes_of_commit hwf h
        have heq := htx.symm.trans hf.tx
        simp only [Option.some.injEq, Tx.mk.injEq, TxStage.waitLooked.injEq] at heq
        obtain ⟨rfl, rfl, rfl, rfl, -⟩ := heq
        obtain rfl : StepCacheEntry.output checkpoint.toJson = value := by
          simpa [State.Attempt.leave] using hcache
        obtain ⟨hid, row, hrow, hown⟩ := State.owned_of_tx hwf htx ha
        obtain rfl : row = job := Option.some.inj (hrow.symm.trans hf.row)
        exact .inr ⟨b, row, ⟨ha, rfl, rfl, hnone, hcall.1, hown, hid ▸ hf.row'⟩,
          .inr (by simp [hid, htx])⟩
    · cases hfill
  | _ => cases hfill

theorem isPayloadEnvelope_of_step {payload : Json}
    (h : Payload.extractStepCache payload i = some value) :
    Payload.isPayloadEnvelope payload = true := by
  by_contra hne
  simp [Payload.extractStepCache, hne] at h

/-- A row keeps its checkpoints, unless its holder still lacks the one it writes. -/
theorem step_kept (hwf : Wf s) (hdist : DistinctLocks s) (h : s.exec e = some (s', r))
    (hrow : s.db.jobs.get? id = some job) (hrow' : s'.db.jobs.get? id = some job')
    (hkept : s.replaces s' id = false)
    (hheld : ∀ k a, s.attempts.get? k = some a → a.job.id = id → job.lock = some a.lock →
      a.cache i ≠ none)
    (hstep : Payload.extractStepCache job.payload i = some value) :
    Payload.extractStepCache job'.payload i = some value := by
  have henv := isPayloadEnvelope_of_step hstep
  have hobj := Payload.isObject_of_isPayloadEnvelope henv
  have hgen : job'.generation ≤ job.generation := by
    simpa [State.replaces, hrow, hrow'] using hkept
  have hwrite : ∀ {k : ℕ} {a : Attempt} {j : String} {new : StepCacheEntry},
      s.attempts.get? k = some a → a.job.id = id → a.job.owns job = true → a.cache j = none →
      Payload.extractStepCache (Payload.setStep job.payload j new.toJson) i = some value := by
    intro k a j new ha hid howns hnone
    have hlock := lock_of_owned hwf hdist ha (owned_eq_some_iff.mpr ⟨hid ▸ hrow, howns⟩)
    have hne : i ≠ j := fun hij => hheld k a ha hid hlock (hij ▸ hnone)
    rw [Payload.extractStepCache_setStep henv, if_neg hne, hstep]
  have hqueued : ∀ {mid : Job}, Queued job mid → mid.generation ≤ job.generation →
      Payload.extractStepCache mid.payload i = some value := by
    intro mid hq hle
    rcases payload_queued hq (le_antisymm hle hq.generation_le) with hp | ⟨-, hp⟩ <;> rw [hp]
    · exact hstep
    · rw [Payload.markWaited, Payload.extractStepCache_set hobj (by decide) (by decide), hstep]
  have hchange := State.row_change hwf h id
  rw [hrow, hrow'] at hchange
  cases hchange with
  | same | claimed | unlocked | woken | retried | exhausted => exact hstep
  | queued _ _ hfree hq => exact hqueued hq hgen
  | suspended _ mid he htx ha hr hq => exact @hqueued mid hq hgen
  | checkpointed _ he hr ha hid howns hfree hcall hnone => exact hwrite ha hid howns hnone
  | progressed =>
    rw [← hstep]
    exact Payload.extractStepCache_set hobj (by decide) (by decide)
  | finished _ he htx ha =>
    obtain ⟨b, row, hb, hid, hrow₁, howns, -, hnone, -⟩ := hwf.tx _ _ htx
    obtain rfl : row = job := Option.some.inj (hrow₁.symm.trans hrow)
    exact hwrite hb hid howns hnone
  | continued =>
    have hpayload : job.retired.payload = job.payload := by unfold Job.retired; split <;> rfl
    rw [hpayload, hstep]

/-! ## The invariant -/

structure Acks.Inv (s : State) (l : Lineage) (acks : Acks) : Prop where
  fresh : ∀ root i, s.db.nextId ≤ root → acks root i = none
  /-- The row that can run next has every acknowledged checkpoint. -/
  rows : ∀ id job i value, l.continued id = false → s.db.jobs.get? id = some job →
    acks (l.root id) i = some value → Payload.extractStepCache job.payload i = some value
  /-- The store of its holder has them and no others. -/
  stores : ∀ k a job i, l.continued a.job.id = false → s.attempts.get? k = some a →
    s.db.jobs.get? a.job.id = some job → job.lock = some a.lock →
    a.cache i = acks (l.root a.job.id) i

theorem State.acknowledges_some {root : JobId}
    (h : s.acknowledges l late e s' root i = some value) :
    ∃ k ids a', s.filling e = some (k, ids) ∧ ids i = true ∧ s'.attempts.get? k = some a' ∧
      l.root a'.job.id = root ∧ (late = true ∨ l.continued a'.job.id = false) ∧
      a'.cache i = some value := by
  simp only [State.acknowledges, Option.bind_eq_some_iff] at h
  obtain ⟨⟨k, ids⟩, hfill, a', ha', hcache⟩ := h
  split at hcache
  · rename_i hroot
    exact ⟨k, ids, a', hfill, hroot.2.2, ha', hroot.1, hroot.2.1, hcache⟩
  · cases hcache

theorem State.acknowledges_of_filling {ids : String → Bool} (hfill : s.filling e = some (k, ids))
    (hids : ids i = true) (ha' : s'.attempts.get? k = some a')
    (hopen : l.continued a'.job.id = false) :
    s.acknowledges l late e s' (l.root a'.job.id) i = a'.cache i := by
  simp [State.acknowledges, hfill, ha', hopen, hids]

/-- A step changes a store only by filling it. -/
theorem cache_filled (h : s.exec e = some (s', r)) (ha : s.attempts.get? k = some a)
    (ha' : s'.attempts.get? k = some a') (hk : k < s.nextAttempt) (hne : a'.cache i ≠ a.cache i) :
    ∃ ids, s.filling e = some (k, ids) ∧ ids i = true := by
  have hchange := State.attempt_change h k
  rw [ha, ha'] at hchange
  have hupdate : ∀ {j : String} {new : Option StepCacheEntry},
      Function.update a.cache j new i ≠ a.cache i → i = j := by
    intro j new hne
    by_contra hij
    exact hne (Function.update_of_ne hij _ _)
  cases hchange with
  | same | progressed | called | continued => exact absurd rfl hne
  | started o he hnext => exact absurd hk (by simp [hnext])
  | checkpointed _ he => exact ⟨_, by rw [he]; rfl, by simpa using hupdate hne⟩
  | @left _ _ _ _ call _ _ entered he htx hr =>
    cases entered with
    | finished =>
      exact ⟨fun j => j = call.waitId, by simp [he, State.filling, htx], by simpa using hupdate hne⟩
    | suspended => exact absurd rfl hne

section
variable (hwf : Wf s) (hlin : Lineage.Inv s l)
  (hlate : late = true → lateCheckpoint (s, l) e = false) (h : s.exec e = some (s', r))
include hwf hlin h

/-- A continued row is not replaced, and neither is a locked one. -/
theorem not_replacesRoot (hopen : l.continued id = false) (hrow : s.db.jobs.get? id = some job)
    (hlock : job.lock ≠ none ∨ ∃ now pool id' jobOutcomes, e = .claim now pool id' jobOutcomes) :
    s.replacesRoot l s' (l.root id) = false := by
  by_contra hne
  have hany : s.replacesRoot l s' (l.root id) = true := by simpa using hne
  obtain ⟨id₂, -, -, hreplaced⟩ := Table.any_iff.mp hany
  simp only [Bool.and_eq_true, decide_eq_true_eq] at hreplaced
  obtain ⟨job₂, job₂', hrow₂, -, hnone, hkey, -, -, he⟩ := State.replaces_cases hwf h hreplaced.1
  have hopen₂ : l.continued id₂ = false := by
    by_contra hcontinued
    exact hkey (hlin.spent id₂ job₂ (by simpa using hcontinued) hrow₂).1
  obtain rfl := hlin.tips id₂ id hopen₂ hopen hreplaced.2
  rcases hlock with hlock | ⟨now, pool, id', jobOutcomes, rfl⟩
  · rw [Option.some.inj (hrow₂.symm.trans hrow)] at hnone
    exact hlock hnone
  · rcases he with ⟨_, _, he⟩ | ⟨_, _, he⟩ <;> cases he

include hlate

/-- Only the row that can run next is claimed or written to. -/
private theorem filled_open {ids : String → Bool} (hfill : s.filling e = some (k, ids))
    (hids : ids i = true) (ha' : s'.attempts.get? k = some a') (hcache : a'.cache i = some value)
    (hby : late = true ∨ l.continued a'.job.id = false) : l.continued a'.job.id = false := by
  by_contra hne
  have hcontinued : l.continued a'.job.id = true := by simpa using hne
  have hlate : lateCheckpoint (s, l) e = false := hlate (hby.resolve_right hne)
  rcases filling_cases hwf h hfill hids ha' hcache with
    ⟨now, pool, jobOutcomes, job, -, -, hrow, hclaim, -⟩ | ⟨a, job, hw, hby⟩
  · have hlive := (hlin.spent _ job hcontinued hrow).2
    simp [claimable, Job.available, hlive] at hclaim
  · rw [hw.same] at hcontinued
    rcases hby with ⟨output, rfl⟩ | htx
    · simp [lateCheckpoint, hw.attempt, hcontinued, hw.owned] at hlate
    · exact htx (hlin.closed _ hcontinued)

variable (hdist : DistinctLocks s) (hinv : Acks.Inv s l acks)
include hdist hinv

omit hlate hinv in
/-- What is filled in is the row's own checkpoint. -/
private theorem step_of_filled {ids : String → Bool} (hfill : s.filling e = some (k, ids))
    (hids : ids i = true) (ha' : s'.attempts.get? k = some a') (hcache : a'.cache i = some value)
    (hrow' : s'.db.jobs.get? a'.job.id = some job') :
    Payload.extractStepCache job'.payload i = some value := by
  rcases filling_cases hwf h hfill hids ha' hcache with
    ⟨now, pool, jobOutcomes, job, -, -, -, -, hclaimed, hclaim⟩ | ⟨a, job, hw, -⟩
  · obtain rfl := Option.some.inj (hrow'.symm.trans hclaimed)
    rw [hclaim] at hcache
    exact hcache
  · obtain ⟨hrow, howns⟩ := owned_eq_some_iff.mp hw.owned
    have hlock := lock_of_owned hwf hdist hw.attempt hw.owned
    obtain ⟨henv, -⟩ := hlin.envelope k a job hw.attempt hrow hlock hw.envelope
    rw [hw.same, hw.row] at hrow'
    obtain rfl := Option.some.inj hrow'
    simp only [Job.setPayload]
    rw [Payload.extractStepCache_setStep henv, if_pos rfl]

/-- An acknowledged checkpoint stays as it is until the payload is replaced. -/
theorem acks_kept {root : JobId} {l' : Lineage} (hkept : s.replacesRoot l s' root = false)
    (hold : acks root i = some value) : Acks.note late (s, l) e (s', l') acks root i = some value := by
  simp only [Acks.note, hkept]
  cases hnew : s.acknowledges l late e s' root i with
  | none => exact hold
  | some new =>
    obtain ⟨k, ids, a', hfill, hids, ha', rfl, hby, hcache⟩ := State.acknowledges_some hnew
    have hopen := filled_open hwf hlin hlate h hfill hids ha' hcache hby
    suffices hsame : new = value by simp [hsame]
    rcases filling_cases hwf h hfill hids ha' hcache with
      ⟨now, pool, jobOutcomes, job, -, -, hrow, -, -, hclaim⟩ | ⟨a, job, hw, -⟩
    · rw [hclaim, hinv.rows _ job i value hopen hrow hold] at hcache
      exact (Option.some.inj hcache).symm
    · rw [hw.same] at hold hopen
      have hstore := hinv.stores k a job i hopen hw.attempt (owned_eq_some_iff.mp hw.owned).1
        (lock_of_owned hwf hdist hw.attempt hw.owned)
      rw [hw.new, hold] at hstore
      cases hstore

/-- A row that has not been continued keeps the acknowledged checkpoints, and gets the new ones. -/
private theorem row_acks (hopen : l.continued id = false)
    (hrow' : s'.db.jobs.get? id = some job') {l' : Lineage}
    (hacks : Acks.note late (s, l) e (s', l') acks (l.root id) i = some value) :
    Payload.extractStepCache job'.payload i = some value := by
  simp only [Acks.note] at hacks
  split at hacks
  · cases hacks
  rename_i hkept
  cases hnew : s.acknowledges l late e s' (l.root id) i with
  | some new =>
    obtain rfl : new = value := by simpa [hnew] using hacks
    obtain ⟨k, ids, a', hfill, hids, ha', hroot, hby, hcache⟩ := State.acknowledges_some hnew
    have hid := hlin.tips _ _ (filled_open hwf hlin hlate h hfill hids ha' hcache hby) hopen hroot
    exact step_of_filled hwf hlin h hdist hfill hids ha' hcache (hid ▸ hrow')
  | none =>
    have hold : acks (l.root id) i = some value := by simpa [hnew] using hacks
    have hid : id < s.db.nextId := by
      by_contra hle
      have hle := not_lt.mp hle
      rw [(hlin.fresh id hle).1, hinv.fresh id i hle] at hold
      cases hold
    obtain ⟨job, hrow⟩ := row_of_below hwf h hid hrow'
    have hreplaces : s.replaces s' id = false := by
      by_contra hne
      exact hkept (Table.any_iff.mpr ⟨id, job, hrow, by simp [hne]⟩)
    refine step_kept hwf hdist h hrow hrow' hreplaces (fun k a ha hid hlock => ?_)
      (hinv.rows id job i value hopen hrow hold)
    subst hid
    rw [hinv.stores k a job i hopen ha hrow hlock, hold]
    exact Option.some_ne_none value

private theorem acks_rows_exec (hopen : (l.note s e s').continued id = false)
    (hrow' : s'.db.jobs.get? id = some job')
    (hacks : Acks.note late (s, l) e (s', l.note s e s') acks ((l.note s e s').root id) i =
      some value) : Payload.extractStepCache job'.payload i = some value := by
  rcases continues_cases hwf h with ⟨hnone, -⟩ | ⟨old, k, now, job, runAt, traceparent, progress,
    a, rfl, hsome, hc⟩
  · simp only [Lineage.note, hnone] at hopen hacks
    exact row_acks hwf hlin hlate h hdist hinv hopen hrow' hacks
  simp only [Lineage.note, hsome, Function.update_apply] at hopen hacks
  split at hopen
  · cases hopen
  split at hacks
  · -- The continuation starts from the checkpoints of the row it continues.
    rename_i hid
    have hold : acks (l.root old) i = some value := by
      simp only [Acks.note, State.acknowledges, State.filling] at hacks
      split at hacks
      · cases hacks
      · simpa using hacks
    have hstep := hinv.rows old job i value (not_continued hlin hc) hc.row hold
    rw [hc.rows, if_pos hid] at hrow'
    obtain rfl := Option.some.inj hrow'
    have hobj := Payload.isObject_of_isPayloadEnvelope (isPayloadEnvelope_of_step hstep)
    exact (Payload.extractStepCache_continueEnvelope hobj progress traceparent).trans hstep
  · exact row_acks hwf hlin hlate h hdist hinv hopen hrow' hacks

private theorem acks_stores_exec (hdist' : DistinctLocks s')
    (hopen : (l.note s e s').continued a'.job.id = false) (ha' : s'.attempts.get? k = some a')
    (hrow' : s'.db.jobs.get? a'.job.id = some job') (hlock' : job'.lock = some a'.lock) :
    a'.cache i = Acks.note late (s, l) e (s', l.note s e s') acks
      ((l.note s e s').root a'.job.id) i := by
  have hholder := holder_cases hwf hdist' h ha' hrow' hlock'
  -- A row that is held now is not the new row of this step.
  have hid : a'.job.id < s.db.nextId := by
    rcases hholder with ⟨_, _, _, job, -, -, hrow, -⟩ | ⟨a, job, ha, hjob, -⟩
    · exact hwf.idsBelow _ _ hrow
    · rw [hjob]
      exact (hwf.attemptBelow k a ha).2
  have hsame : (l.note s e s').root a'.job.id = l.root a'.job.id ∧
      l.continued a'.job.id = false := by
    rcases continues_cases hwf h with ⟨hnone, -⟩ | ⟨old, _, _, _, _, _, _, _, -, hsome, -⟩
    · exact ⟨by simp [Lineage.note, hnone], by simpa [Lineage.note, hnone] using hopen⟩
    · simp only [Lineage.note, hsome, Function.update_apply] at hopen ⊢
      split at hopen
      · cases hopen
      · exact ⟨if_neg hid.ne, hopen⟩
  rw [hsame.1]
  -- The one store that can be filled here is this one.
  have hfilled : ∀ value, s.acknowledges l late e s' (l.root a'.job.id) i = some value →
      a'.cache i = some value := by
    intro value hnew
    obtain ⟨k₂, ids, b', hfill, hids, hb', hroot, hby, hcache⟩ := State.acknowledges_some hnew
    have hbid := hlin.tips _ _ (filled_open hwf hlin hlate h hfill hids hb' hcache hby) hsame.2 hroot
    suffices hk : k = k₂ by
      rw [hk] at ha'
      rw [Option.some.inj (ha'.symm.trans hb'), hcache]
    rcases hholder with ⟨now, pool, jobOutcomes, job, rfl, hk, -⟩ |
      ⟨a, job, ha, hjob, hgiven, hrow, hlock⟩
    · simp only [State.filling, Option.some.injEq, Prod.mk.injEq] at hfill
      rw [hk, hfill.1]
    · rw [hjob] at hbid
      rcases filling_cases hwf h hfill hids hb' hcache with
        ⟨_, _, _, row, -, -, hrow₁, hclaim, -⟩ | ⟨b, row, hw, -⟩
      · obtain rfl : row = job := Option.some.inj (hrow₁.symm.trans (hbid ▸ hrow))
        simp [claimable, Job.available, hlock] at hclaim
      · rw [hw.same] at hbid
        obtain ⟨hrow₁, -⟩ := owned_eq_some_iff.mp hw.owned
        obtain rfl : row = job := Option.some.inj (hrow₁.symm.trans (hbid ▸ hrow))
        have hheld := lock_of_owned hwf hdist hw.attempt hw.owned
        exact holds_unique hwf hdist ha hw.attempt hbid.symm
          (Option.some.inj (hlock.symm.trans hheld))
  have hkept : s.replacesRoot l s' (l.root a'.job.id) = false := by
    rcases hholder with ⟨now, pool, jobOutcomes, job, he, -, hrow, -⟩ |
      ⟨a, job, ha, hjob, -, hrow, hlock⟩
    · exact not_replacesRoot hwf hlin h hsame.2 hrow (.inr ⟨_, _, _, _, he⟩)
    · exact not_replacesRoot hwf hlin h hsame.2 (hjob ▸ hrow) (.inl (by simp [hlock]))
  simp only [Acks.note, hkept]
  cases hnew : s.acknowledges l late e s' (l.root a'.job.id) i with
  | some value => simpa using hfilled value hnew
  | none =>
    change a'.cache i = acks (l.root a'.job.id) i
    rcases hholder with ⟨now, pool, jobOutcomes, job, rfl, rfl, hrow, -, -, -, hcache, -⟩ |
      ⟨a, job, ha, hjob, hgiven, hrow, hlock⟩
    · rw [State.acknowledges_of_filling rfl rfl ha' hsame.2] at hnew
      cases hacks : acks (l.root a'.job.id) i with
      | none => exact hnew
      | some value =>
        rw [hcache, hinv.rows _ job i value hsame.2 hrow hacks] at hnew
        cases hnew
    · rw [hjob, ← hinv.stores k a job i (hjob ▸ hsame.2) ha hrow hlock]
      by_contra hne
      obtain ⟨ids, hfill, hids⟩ := cache_filled h ha ha' (hwf.attemptBelow k a ha).1 hne
      rw [State.acknowledges_of_filling hfill hids ha' hsame.2] at hnew
      have hnone : a.cache i = none := by
        cases hcache : a.cache i with
        | none => rfl
        | some value => simp [cache_kept hwf h ha ha' hcache] at hnew
      exact hne (hnew.trans hnone.symm)

omit hlate hdist in
private theorem acks_fresh_exec {root : JobId} (hle : s'.db.nextId ≤ root) (i : String) :
    Acks.note late (s, l) e (s', l.note s e s') acks root i = none := by
  simp only [Acks.note, hinv.fresh root i ((State.db_ok hwf h).1.trans hle)]
  split
  · rfl
  cases hnew : s.acknowledges l late e s' root i with
  | none => rfl
  | some new =>
    obtain ⟨k, ids, a', -, -, ha', hroot, -⟩ := State.acknowledges_some hnew
    have hid := ((State.wf_exec hwf h).attemptBelow k a' ha').2
    have hroot_le := hlin.root_le a'.job.id
    rw [hroot] at hroot_le
    exact absurd (hroot_le.trans_lt hid) (not_lt.mpr hle)

end

theorem Acks.inv_reachable {cond : (State × Lineage) × Acks → Event → Prop}
    (hdiffer : ∀ p e, cond p e → LockTimesDiffer p.1.1 e)
    (hlate : late = true → ∀ p e, cond p e → lateCheckpoint p.1 e = false)
    {p : (State × Lineage) × Acks} (hreach : (acknowledged late).ReachableWith cond p) :
    Wf p.1.1 ∧ DistinctLocks p.1.1 ∧ Lineage.Inv p.1.1 p.1.2 ∧ Acks.Inv p.1.1 p.1.2 p.2 := by
  have hlineage : ∀ {q : (State × Lineage) × Acks}, (acknowledged late).ReachableWith cond q →
      Wf q.1.1 ∧ DistinctLocks q.1.1 ∧ Lineage.Inv q.1.1 q.1.2 := fun hq =>
    Lineage.inv_reachable (.of_observe hdiffer hq)
  obtain ⟨hwf, hdist, hlin⟩ := hlineage hreach
  refine ⟨hwf, hdist, hlin, hreach.invariant (I := fun p => Acks.Inv p.1.1 p.1.2 p.2) ?_ ?_⟩
  · rintro ⟨⟨s, l⟩, acks⟩ ⟨⟨hs, -⟩, hacks⟩
    obtain rfl : s = State.initial := hs
    obtain rfl : acks = fun _ _ => none := hacks
    exact ⟨fun _ _ _ => rfl, fun _ _ _ _ _ _ h => (by cases h), fun _ _ _ _ _ h => (by cases h)⟩
  · rintro ⟨⟨s, l⟩, acks⟩ e ⟨⟨s', l'⟩, acks'⟩ hreach hinv hcond hstep
    obtain ⟨hwf, hdist, hlin⟩ := hlineage hreach
    obtain ⟨hstep, hacks'⟩ := TransitionSystem.observe_step_iff.mp hstep
    obtain ⟨hstep, hl'⟩ := TransitionSystem.observe_step_iff.mp hstep
    obtain ⟨r, hexec⟩ := system_step_iff.mp hstep
    simp only at hacks' hl' hexec
    subst hacks' hl'
    have hdist' := distinctLocks_exec hdist (hdiffer _ _ hcond) hexec
    have hlate' : late = true → lateCheckpoint (s, l) e = false := fun hl => hlate hl _ _ hcond
    exact {
      fresh := fun _ i hle => acks_fresh_exec hwf hlin hexec hinv hle i
      rows := fun _ _ _ _ hopen hrow hacks =>
        acks_rows_exec hwf hlin hlate' hexec hdist hinv hopen hrow hacks
      stores := fun _ _ _ _ hopen ha hrow hlock =>
        acks_stores_exec hwf hlin hlate' hexec hdist hinv hdist' hopen ha hrow hlock }

/-- The next run of a logical job finds every acknowledged checkpoint in its envelope and its store. -/
def Kept (p : (State × Lineage) × Acks) : Prop :=
  ∀ now pool id jobOutcomes s' r, p.1.1.exec (.claim now pool id jobOutcomes) = some (s', r) →
    ∃ a', s'.attempts.get? p.1.1.nextAttempt = some a' ∧ a'.job.id = id ∧
      ∀ i value, p.2 (p.1.2.root id) i = some value →
        Payload.extractStepCache a'.job.payload i = some value ∧ a'.cache i = some value

namespace CheckpointTrace

def spec : JobSpec :=
  ⟨"import", Payload.injectTraceContext none none, none, none, none, none, none, none, .replace⟩

/-- The continuation can be claimed, and the step was acknowledged. -/
def claimed (p : (State × Lineage) × Acks) (check : Attempt → Bool) : Bool :=
  (p.2 (p.1.2.root 2) "rows").isSome &&
    (p.1.1.exec (.claim 0 "q" 2 false)).any fun res =>
      (res.1.attempts.get? p.1.1.nextAttempt).any check

end CheckpointTrace

end BetterGraphileWorker
