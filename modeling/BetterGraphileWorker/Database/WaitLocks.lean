-- SUMMARY: The row locks of the wait transactions, and when a parent that re-enters a wait and the reports to it deadlock.
import BetterGraphileWorker.Database.Tables
import BetterGraphileWorker.Library.Locks

/-!
# The locks of waits

`enterWait` locks the parent's job, then its group, and deletes the group with its waits if
it is finished. A report locks the child's job, then its waits, their groups, and the job of
a parent whose last child it was. Rows that a transaction inserts are its own until it
commits, and lanes and outcomes are locked by the settlement of their one job only; both are
left out.
-/

namespace BetterGraphileWorker.WaitLocks

open RowLocks

inductive Row where
  | job (id : JobId)
  | group (key : GroupKey)
  | wait (key : WaitKey)
  /-- An idempotency key of a queue. -/
  | idempotency (queue key : String)
deriving DecidableEq

/-- What the statements of a wait find to lock. -/
inductive WaitTx where
  /-- `enterWait` without a group: what the children's statement finds of keys and jobs. -/
  | create (parent : JobId) (found : List Row)
  /-- `enterWait` with a group that is not finished. -/
  | suspend (group : GroupKey)
  /-- `enterWait` with a group whose children reported, or whose deadline passed. -/
  | finish (group : GroupKey) (waits : List ℕ)
  /-- `settleJob` with a report. -/
  | settle (child : JobId) (updates : List Row)
  -- The statements of `sweepWaits`, each a transaction of its own.
  | sweepLost (lost : List WaitKey) (updates : List Row)
  | sweepWake (parents : List JobId)
  | sweepOrphans (groups : List GroupKey) (waits : List WaitKey)
deriving DecidableEq

/--
The rows of `reported`, `counted` and `woken`. A CTE that reads the rows of another takes its
locks after it, and `counted` reads groups of all the rows of `reported`.
-/
structure CteOrder (rows : List Row) : Prop where
  counted : ∀ before key after, rows = before ++ .group key :: after →
    (∃ idx, .wait (key, idx) ∈ before) ∧ ∀ wait, .wait wait ∉ after
  woken : ∀ before parent after, rows = before ++ .job parent :: after →
    ∃ waitId, .group (parent, waitId) ∈ before
  tables : ∀ queue key, .idempotency queue key ∉ rows

namespace WaitTx

/-- The rows of the CTEs that report. -/
def reports : WaitTx → List Row
  | .settle _ updates => updates
  | .sweepLost lost updates => lost.map .wait ++ updates
  | _ => []

/-- The statements lock rows of their tables, in the order of the CTEs and cascades. -/
def Valid : WaitTx → Prop
  | .create _ found =>
    ∀ row ∈ found, (∃ id, row = .job id) ∨ ∃ queue key, row = .idempotency queue key
  | .settle _ updates => CteOrder updates
  | .sweepLost lost updates => CteOrder (lost.map .wait ++ updates) ∧ ∀ wait, .wait wait ∉ updates
  | .sweepOrphans groups waits => ∀ wait ∈ waits, wait.1 ∈ groups
  | .suspend _ | .finish _ _ | .sweepWake _ => True

/-- The locks in their order; waits that are `SKIP LOCKED` are optional. -/
def program : WaitTx → List (Request Row)
  | .create parent found => (.job parent :: found).map (⟨·, false⟩)
  | .suspend group => [⟨.job group.1, false⟩, ⟨.group group, false⟩]
  | .finish group waits =>
    (.job group.1 :: .group group :: waits.map fun idx => .wait (group, idx)).map (⟨·, false⟩)
  | .settle child updates => (.job child :: updates).map (⟨·, false⟩)
  | .sweepLost lost updates => lost.map (⟨.wait ·, true⟩) ++ updates.map (⟨·, false⟩)
  | .sweepWake parents => parents.map (⟨.job ·, false⟩)
  | .sweepOrphans groups waits => (groups.map Row.group ++ waits.map Row.wait).map (⟨·, false⟩)

def rows (tx : WaitTx) : List Row := tx.program.map (·.row)

/-- The groups that it locks before their waits, or before it looks for reports. -/
def enters : WaitTx → List GroupKey
  | .suspend group | .finish group _ => [group]
  | .sweepOrphans groups _ => groups
  | _ => []

/-- The waits that go with their groups. -/
def deletes : WaitTx → List WaitKey
  | .finish group waits => waits.map (group, ·)
  | .sweepOrphans _ waits => waits
  | _ => []

end WaitTx

/-- Any number of wait transactions. -/
def system : TransitionSystem (Kinds Row WaitTx) (Kinds.Event WaitTx) := Kinds.system WaitTx.program

/-- Transactions lock rows as the statements do. -/
def Begins (e : Kinds.Event WaitTx) : Prop := ∀ tx, e = .start tx → tx.Valid

/-! ## Transactions that cross -/

section
variable {before : Row → Row → Prop} {txs : Set WaitTx} {tx tx' : WaitTx}

end

section
variable {before : Row → Row → Prop} {txs : Set WaitTx} {tx tx' : WaitTx} {a b : Row}

/-! ## One order for all transactions -/

/-- The job that a row hangs on: the parent, for a group and its waits. -/
def anchor : Row → Row
  | .group group => .job group.1
  | .wait wait => .job wait.1.1
  | row => row

/-- A parent's waits come before their group, and that before the parent's job. -/
def stage : Row → ℕ
  | .wait _ => 0
  | .group _ => 1
  | .job _ | .idempotency _ _ => 2

/-- Groups that a transaction enters come after all jobs, and the waits that one deletes last. -/
inductive Late (txs : Set WaitTx) : Row → ℕ → Prop where
  | entered {tx : WaitTx} {group : GroupKey} (htx : tx ∈ txs) (hgroup : group ∈ tx.enters) :
    Late txs (.group group) 1
  | deleted {tx : WaitTx} {wait : WaitKey} (htx : tx ∈ txs) (hwait : wait ∈ tx.deletes) :
    Late txs (.wait wait) 2

open Classical in
noncomputable def level (txs : Set WaitTx) (row : Row) : ℕ :=
  if h : ∃ n, Late txs row n then h.choose else 0

/-- Rows of one level that come one after the other for the sake of their jobs and tables. -/
def Follows (before : Row → Row → Prop) (a b : Row) : Prop :=
  before (anchor a) (anchor b) ∨
    anchor a = anchor b ∧ (stage a < stage b ∨ stage a = stage b ∧ before a b)

end

namespace Trace

/-- The last child of wait `w` of job 1 completes. -/
def report : WaitTx := .settle 2 [.wait ((1, "w"), 0), .group (1, "w"), .job 1]

/-- The children of job 1 first. -/
def before (a b : Row) : Prop := ∃ child ≠ 1, a = .job child ∧ b = .job 1

/-- Meanwhile the results of wait `v` are there, and a sweep wakes job 1. -/
def calm : Set WaitTx := {report, .finish (1, "v") [0], .sweepWake [1]}

/-- Job 1 enters the wait again while its last child completes. -/
def crossed : List (Kinds.Event WaitTx) :=
  [.start (.suspend (1, "w")), .start report, .take 0, .take 1, .take 1, .take 1]

/-- The next row of transaction `k` is held by transaction `k'`. -/
def waits (s : Kinds Row WaitTx) (k k' : ℕ) (row : Row) : Bool :=
  (match s.locks.txs.get? k with
    | some ⟨_, ⟨next, false⟩ :: _⟩ => next = row
    | _ => false) && (s.locks.txs.get? k').any fun tx => row ∈ tx.held

/-- Only these transactions start. -/
def starts (tx tx' : WaitTx) : Kinds.Event WaitTx → Bool
  | .start started => started = tx ∨ started = tx'
  | _ => true

end Trace

private theorem waitsFor_of_waits {s : Kinds Row WaitTx} {k k' : ℕ} {row : Row} (hne : k ≠ k')
    (h : Trace.waits s k k' row = true) : s.locks.WaitsFor k k' := by
  simp only [Trace.waits, Bool.and_eq_true, Option.any_eq_true] at h
  obtain ⟨hnext, tx', hget', hheld⟩ := h
  split at hnext
  · rename_i held next rest hget
    obtain rfl : next = row := by simpa using hnext
    exact ⟨hne, _, tx', next, rest, hget, hget', rfl, by simpa using hheld⟩
  · cases hnext

end BetterGraphileWorker.WaitLocks
