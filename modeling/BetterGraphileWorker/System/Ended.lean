-- SUMMARY: Rows that have ended, gone or unlocked without attempts, never run or report again.
import BetterGraphileWorker.System.WellFormed

/-!
# Ended rows

`Job.lost` is the shape that the sweep looks for. Every step that a run takes between its
claim and its end needs the row's lock, and nothing gives an unlocked row attempts back
except a keyed re-add, which passes over a row that has none left.
-/

namespace BetterGraphileWorker

variable {s s' : State} {e : Event} {r : Reply} {id : JobId} {job job' : Job}

theorem lost_iff {row : Option Job} : Job.lost row = true ↔
    ∀ job, row = some job → job.lock = none ∧ job.live = false := by
  cases row <;> simp [Job.lost]

theorem lost_some : Job.lost (some job) = true ↔ job.lock = none ∧ job.live = false := by
  simp [Job.lost]

/-- Re-adding the key of a row without attempts leaves it without attempts. -/
private theorem spent_queued (hq : Queued job job') (hlock : job.lock = none)
    (hlive : job.live = false) : job'.lock = none ∧ job'.live = false := by
  refine ⟨hq.lock.trans hlock, ?_⟩
  obtain ⟨mid, hr, hjob'⟩ := hq
  have hmid : mid.live = false := by
    have hspent := hr.spent (by simp [Job.available, hlive])
    rcases hr.kept hspent with rfl | rfl
    · exact hlive
    · simp [Job.live, Job.superseded]
  rcases hjob' with rfl | ⟨-, rfl⟩ <;> exact hmid

/-- A row that has ended stays so. -/
theorem lost_persists (hwf : Wf s) (h : s.exec e = some (s', r)) (hid : id < s.db.nextId)
    (hlost : Job.lost (s.db.jobs.get? id) = true) : Job.lost (s'.db.jobs.get? id) = true := by
  have hchange := State.row_change hwf h id
  have howned : ∀ job {k} {a : Attempt}, s.attempts.get? k = some a → a.job.id = id →
      a.job.owns job = true → s.db.jobs.get? id = some job → False := by
    intro job k a ha hid' howns hrow
    obtain ⟨lock, hlock, -⟩ := owns_iff.mp howns
    rw [(lost_iff.mp hlost job hrow).1] at hlock
    cases hlock
  have hheld : ∀ tx, s.txs.get? id = some tx → False := by
    intro tx htx
    obtain ⟨a, job, ha, hid', hrow, howns, -⟩ := hwf.tx id tx htx
    exact howned job ha hid' howns hrow
  generalize hrow : s.db.jobs.get? id = before at hchange hlost
  generalize hrow' : s'.db.jobs.get? id = after at hchange
  cases hchange with
  | same => exact hlost
  | deleted | continuedAway => rfl
  | inserted _ hle => exact absurd hid (not_lt.mpr hle)
  | continuation he htx hnew => exact absurd hid (by simp [hnew])
  | queued job job' hfree hq he =>
    obtain ⟨hlock, hlive⟩ := lost_some.mp hlost
    exact lost_some.mpr (spent_queued hq hlock hlive)
  | claimed job he hfree hclaim =>
    obtain ⟨hlock, hlive⟩ := lost_some.mp hlost
    simp [claimable, Job.available, hlive] at hclaim
  | unlocked job hfree hlock =>
    rw [(lost_some.mp hlost).1] at hlock
    cases hlock
  | woken job => exact hlost
  | exhausted job =>
    obtain ⟨hlock, -⟩ := lost_some.mp hlost
    exact lost_some.mpr ⟨hlock, by simp [Job.live, Job.exhaust]⟩
  | checkpointed job he hr ha hid' howns => exact (howned job ha hid' howns hrow).elim
  | progressed job he ha hid' howns => exact (howned job ha hid' howns hrow).elim
  | retried job he ha hid' howns => exact (howned job ha hid' howns hrow).elim
  | suspended job mid he htx => exact (hheld _ htx).elim
  | finished job he htx => exact (hheld _ htx).elim
  | continued job he htx => exact (hheld _ htx).elim

/-- Nobody claims a row that has ended. -/
theorem not_claimed_of_lost {now : Time} {pool : PoolId} {jobOutcomes : Bool}
    (hlost : Job.lost (s.db.jobs.get? id) = true) : s.exec (.claim now pool id jobOutcomes) = none := by
  cases hexec : s.exec (.claim now pool id jobOutcomes) with
  | none => rfl
  | some res =>
    obtain ⟨job, hrow, hclaim, -⟩ := State.claim_cases hexec
    simp [claimable, Job.available, (lost_iff.mp hlost job hrow).2] at hclaim

/-- No attempt owns a row that has ended. -/
theorem not_owned_of_lost {helpers : HelpersJob}
    (hlost : Job.lost (s.db.jobs.get? helpers.id) = true) : s.db.owned helpers = none := by
  cases hown : s.db.owned helpers with
  | none => rfl
  | some job =>
    obtain ⟨hrow, howns⟩ := owned_eq_some_iff.mp hown
    obtain ⟨lock, hlock, -⟩ := owns_iff.mp howns
    rw [(lost_iff.mp hlost job hrow).1] at hlock
    cases hlock

end BetterGraphileWorker
