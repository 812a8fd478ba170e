-- SUMMARY: The statistics of getJobStats: the live jobs of the database, counted by task, beside the last finished jobs of the process.
import Mathlib.Algebra.BigOperators.Ring.Finset
import BetterGraphileWorker.Database.Outcomes
import BetterGraphileWorker.Worker.Durations
import BetterGraphileWorker.Worker.Registry

/-!
# Job statistics

The store of finished jobs keeps the last jobs of each queue in memory; `queryJobCounts` counts
the rows of the database by task and state. `mergeJobStats` makes one row of both for each name.
-/

namespace BetterGraphileWorker.JobStats

/-! ## The store of finished jobs -/

structure CompletedJobsStore where
  maxJobsPerQueue : ℕ
  positive : 1 ≤ maxJobsPerQueue
  /-- The newest job of a queue comes first. -/
  completedJobs : Table String (List CompletedJob)

def defaultMaxJobsPerQueue : JsNumber := .finite 50

/-- The largest value of `assertInteger` unless it is given one. -/
def maxSafeInteger : ℕ := 9007199254740991

def createCompletedJobsStore (maxJobsPerQueue : Option JsNumber) : Except Thrown CompletedJobsStore :=
  match h : Durations.assertInteger (maxJobsPerQueue.getD defaultMaxJobsPerQueue) "maxPerQueue" 1
      maxSafeInteger with
  | .ok n => .ok ⟨n, (Durations.assertInteger_bounds h).1, ∅⟩
  | .error message => .error (.error "RangeError" message)

/-- The option is nothing, `false` or an object; without a store nothing is kept. -/
def resolveCompletedJobsStore (option : Option (Option (Option JsNumber))) :
    Except Thrown (Option CompletedJobsStore) :=
  match option with
  | none | some none => .ok none
  | some (some maxPerQueue) => (createCompletedJobsStore maxPerQueue).map some

namespace CompletedJobsStore

variable (store : CompletedJobsStore)

def jobsOf (queueName : String) : List CompletedJob := (store.completedJobs.get? queueName).getD []

def add (job : CompletedJob) : CompletedJobsStore :=
  let queueJobs := job :: store.jobsOf job.queueName
  let queueJobs := if store.maxJobsPerQueue < queueJobs.length then queueJobs.dropLast else queueJobs
  { store with completedJobs := store.completedJobs.put job.queueName queueJobs }

/-- The last to complete comes first; the sort is stable. -/
def getAll : List CompletedJob :=
  (store.completedJobs.rows.flatMap (·.2)).mergeSort fun a b => b.completedAt ≤ a.completedAt

structure QueueStats where
  completed : ℕ
  failed : ℕ

def statsOf (jobs : List CompletedJob) : QueueStats where
  completed := jobs.countP (·.status = .success)
  failed := jobs.countP (·.status = .failed)

def getStats : List (String × QueueStats) :=
  store.completedJobs.rows.map fun queue => (queue.1, statsOf queue.2)

end CompletedJobsStore

open CompletedJobsStore (QueueStats statsOf)

/-! ## Counts of the database -/

structure JobCountRow where
  taskIdentifier : String
  pending : ℕ
  running : ℕ
  failed : ℕ

/-- The groups of `queryJobCounts`, in the order of their first rows. -/
def queryJobCounts (db : Db) : List JobCountRow :=
  let count := fun taskIdentifier (state : Job → Bool) =>
    db.jobs.count fun _ job => job.identifier = taskIdentifier && state job
  ((db.jobs.rows.map fun row => row.2.identifier).eraseDups).map fun taskIdentifier => {
    taskIdentifier
    pending := count taskIdentifier fun job => job.lock.isNone && job.attempts < job.maxAttempts
    running := count taskIdentifier fun job => job.lock.isSome
    failed := count taskIdentifier fun job => job.lock.isNone && job.maxAttempts ≤ job.attempts }

/-! ## Merging -/

/-- The number of a property name that is an array index. -/
def arrayIndex? (name : String) : Option ℕ :=
  name.toNat?.filter fun n => toString n = name && n < 4294967295

/-- `Object.keys`: array indices first, in ascending order. -/
def objectKeys (names : List String) : List String :=
  let indices := names.filter fun name => (arrayIndex? name).isSome
  indices.mergeSort (fun a b => (arrayIndex? a).getD 0 ≤ (arrayIndex? b).getD 0) ++
    names.filter fun name => (arrayIndex? name).isNone

structure WorkerJobStatsRow where
  taskIdentifier : String
  pending : ℕ
  running : ℕ
  recentCompleted : ℕ
  failed : ℕ
  recentFailed : ℕ

def mergeJobStats (rows : List JobCountRow) (ring : List (String × QueueStats))
    (taskIdentifiers : List String) : List WorkerJobStatsRow :=
  let names :=
    (taskIdentifiers ++ rows.map (·.taskIdentifier) ++ objectKeys (ring.map Prod.fst)).eraseDups
  names.map fun taskIdentifier =>
    -- a `Map` of the rows keeps the last one of a name
    let pg := (rows.filter (·.taskIdentifier = taskIdentifier)).getLast?
    let mem := (ring.find? fun queue => queue.1 = taskIdentifier).map Prod.snd
    { taskIdentifier
      pending := (pg.map (·.pending)).getD 0
      running := (pg.map (·.running)).getD 0
      recentCompleted := (mem.map (·.completed)).getD 0
      failed := (pg.map (·.failed)).getD 0
      recentFailed := (mem.map (·.failed)).getD 0 }

/-- `getJobStats`, with the rows that `queryJobCounts` returned. -/
def getJobStats (queues : List Registry.QueueContract) (rows : List JobCountRow)
    (completedJobs : Option CompletedJobsStore) : List WorkerJobStatsRow :=
  let ring := (completedJobs.map (·.getStats)).getD []
  mergeJobStats rows ring (queues.flatMap (·.taskNames))

/-! ## The last jobs of each queue -/

/-- The jobs that the process finished, in order. -/
def run (store : CompletedJobsStore) (jobs : List CompletedJob) : CompletedJobsStore :=
  jobs.foldl CompletedJobsStore.add store

/-- The last `n` jobs of a queue, the newest first. -/
def newest (n : ℕ) (jobs : List CompletedJob) (queueName : String) : List CompletedJob :=
  ((jobs.filter (·.queueName = queueName)).reverse).take n

section
variable {store : CompletedJobsStore} {jobs : List CompletedJob} {job : CompletedJob} {queueName : String}

theorem newest_snoc (n : ℕ) : newest n (jobs ++ [job]) queueName =
    if job.queueName = queueName then (job :: newest n jobs queueName).take n
    else newest n jobs queueName := by
  unfold newest
  rw [List.filter_append, List.reverse_append]
  by_cases hq : job.queueName = queueName
  · rw [if_pos hq, List.filter_cons_of_pos (by simpa using hq), List.filter_nil, List.reverse_singleton,
      List.singleton_append]
    cases n with
    | zero => rfl
    | succ n => rw [List.take_succ_cons, List.take_succ_cons, List.take_take, min_eq_left (Nat.le_succ n)]
  · rw [if_neg hq, List.filter_cons_of_neg (by simpa using hq), List.filter_nil, List.reverse_nil,
      List.nil_append]

theorem mem_newest {n : ℕ} (h : job ∈ newest n jobs queueName) : job ∈ jobs ∧ job.queueName = queueName := by
  have hmem := List.mem_of_mem_take h
  rw [List.mem_reverse, List.mem_filter, decide_eq_true_eq] at hmem
  exact hmem

theorem length_newest_le (n : ℕ) (jobs : List CompletedJob) (queueName : String) :
    (newest n jobs queueName).length ≤ n :=
  List.length_take_le n _

theorem jobsOf_add : (store.add job).jobsOf queueName =
    if queueName = job.queueName then
      if store.maxJobsPerQueue < (job :: store.jobsOf job.queueName).length then
        (job :: store.jobsOf job.queueName).dropLast else job :: store.jobsOf job.queueName
    else store.jobsOf queueName := by
  simp only [CompletedJobsStore.jobsOf, CompletedJobsStore.add, Table.get?_put]
  split <;> rfl

/-- Dropping the last of one job too many keeps the newest ones. -/
theorem jobsOf_run (hempty : store.completedJobs = ∅) (queueName : String) :
    (run store jobs).jobsOf queueName = newest store.maxJobsPerQueue jobs queueName ∧
      (run store jobs).maxJobsPerQueue = store.maxJobsPerQueue := by
  induction jobs using List.reverseRecOn generalizing queueName with
  | nil =>
    refine ⟨?_, rfl⟩
    simp [run, newest, CompletedJobsStore.jobsOf, hempty]
  | append_singleton jobs job ih =>
    have hsnoc : run store (jobs ++ [job]) = (run store jobs).add job := by
      simp only [run, List.foldl_append, List.foldl_cons, List.foldl_nil]
    rw [hsnoc]
    refine ⟨?_, (ih queueName).2⟩
    rw [jobsOf_add, newest_snoc, (ih queueName).1, (ih job.queueName).1, (ih queueName).2]
    by_cases hq : queueName = job.queueName
    · subst hq
      rw [if_pos rfl, if_pos rfl]
      have hle := length_newest_le store.maxJobsPerQueue jobs job.queueName
      split
      · rename_i hlong
        rw [List.length_cons] at hlong
        rw [List.dropLast_eq_take, List.length_cons]
        congr 1
        omega
      · rename_i hshort
        rw [List.take_of_length_le (not_lt.mp hshort)]
    · rw [if_neg hq, if_neg (Ne.symm hq)]

theorem isSome_run (hempty : store.completedJobs = ∅) :
    ((run store jobs).completedJobs.get? queueName).isSome = true ↔
      ∃ job ∈ jobs, job.queueName = queueName := by
  induction jobs using List.reverseRecOn with
  | nil => simp [run, hempty]
  | append_singleton jobs job ih =>
    have hsnoc : run store (jobs ++ [job]) = (run store jobs).add job := by
      simp only [run, List.foldl_append, List.foldl_cons, List.foldl_nil]
    rw [hsnoc]
    simp only [CompletedJobsStore.add, Table.get?_put, List.mem_append, List.mem_singleton]
    by_cases hq : queueName = job.queueName
    · rw [if_pos hq]
      exact iff_of_true rfl ⟨job, .inr rfl, hq.symm⟩
    · rw [if_neg hq, ih]
      constructor
      · rintro ⟨job', hmem, hname⟩
        exact ⟨job', .inl hmem, hname⟩
      · rintro ⟨job', hmem | rfl, hname⟩
        · exact ⟨job', hmem, hname⟩
        · exact absurd hname.symm hq

/-- A job is stored under its queue. -/
theorem queueName_of_stored (hempty : store.completedJobs = ∅) {jobs' : List CompletedJob}
    (hget : (run store jobs).completedJobs.get? queueName = some jobs') (hmem : job ∈ jobs') :
    job.queueName = queueName := by
  have hjobs : jobs' = newest store.maxJobsPerQueue jobs queueName := by
    rw [← (jobsOf_run hempty queueName).1, CompletedJobsStore.jobsOf, hget]
    rfl
  exact (mem_newest (hjobs ▸ hmem)).2

theorem empty_of_create {max : Option JsNumber} (h : createCompletedJobsStore max = .ok store) :
    store.completedJobs = ∅ := by
  unfold createCompletedJobsStore at h
  split at h
  · cases h
    rfl
  · cases h

private theorem completed_trans (a b c : CompletedJob) (h : decide (b.completedAt ≤ a.completedAt) = true)
    (h' : decide (c.completedAt ≤ b.completedAt) = true) : decide (c.completedAt ≤ a.completedAt) = true :=
  decide_eq_true ((of_decide_eq_true h').trans (of_decide_eq_true h))

private theorem completed_total (a b : CompletedJob) :
    (decide (b.completedAt ≤ a.completedAt) || decide (a.completedAt ≤ b.completedAt)) = true := by
  rcases le_total b.completedAt a.completedAt with h | h
  · rw [decide_eq_true h, Bool.true_or]
  · rw [decide_eq_true h, Bool.or_true]

/--
The store lists the last jobs of each queue and no others, those that completed last first; if the
clock did not go back, the jobs of a queue stand in the order in which they finished.
-/
theorem completedJobs_recent {max : Option JsNumber} (hcreate : createCompletedJobsStore max = .ok store)
    (jobs : List CompletedJob) :
    (run store jobs).getAll.Pairwise (fun a b => b.completedAt ≤ a.completedAt) ∧
      (∀ queueName, ((run store jobs).getAll.filter (·.queueName = queueName)).Perm
        (newest store.maxJobsPerQueue jobs queueName)) ∧
      (jobs.Pairwise (fun a b => a.completedAt ≤ b.completedAt) → ∀ queueName,
        (run store jobs).getAll.filter (·.queueName = queueName) =
          newest store.maxJobsPerQueue jobs queueName) := by
  have hempty := empty_of_create hcreate
  have hstored : ∀ queueName, ((run store jobs).completedJobs.rows.flatMap (·.2)).filter
      (·.queueName = queueName) = newest store.maxJobsPerQueue jobs queueName := by
    intro queueName
    have hkeyed : ∀ kr ∈ (run store jobs).completedJobs.rows, ∀ job ∈ kr.2, job.queueName = kr.1 :=
      fun kr hkr job hjob => queueName_of_stored hempty (Table.get?_eq_some_iff.mpr hkr) hjob
    have hgroup := Table.filter_flatMap (fun jobs' => jobs') CompletedJob.queueName hkeyed queueName
    rw [Option.map_id'] at hgroup
    exact hgroup.trans (jobsOf_run hempty queueName).1
  have hsorted : (run store jobs).getAll.Pairwise fun a b => b.completedAt ≤ a.completedAt :=
    (List.pairwise_mergeSort completed_trans completed_total _).imp of_decide_eq_true
  have hperm : ∀ queueName, ((run store jobs).getAll.filter (·.queueName = queueName)).Perm
      (newest store.maxJobsPerQueue jobs queueName) := by
    intro queueName
    rw [← hstored queueName]
    exact (List.mergeSort_perm _ _).filter _
  refine ⟨hsorted, hperm, fun hclock queueName => ?_⟩
  -- The jobs of the queue are sorted already, and the sort is stable.
  have hnewest : (newest store.maxJobsPerQueue jobs queueName).Pairwise
      fun a b => decide (b.completedAt ≤ a.completedAt) = true := by
    have hreverse : ((jobs.filter (·.queueName = queueName)).reverse).Pairwise
        fun a b => b.completedAt ≤ a.completedAt :=
      List.pairwise_reverse.mpr (hclock.sublist List.filter_sublist)
    exact (hreverse.sublist (List.take_sublist _ _)).imp decide_eq_true
  have hsublist : (newest store.maxJobsPerQueue jobs queueName).Sublist (run store jobs).getAll := by
    apply List.sublist_mergeSort completed_trans completed_total hnewest
    rw [← hstored queueName]
    exact List.filter_sublist
  have hfiltered := hsublist.filter (·.queueName = queueName)
  rw [List.filter_eq_self.mpr fun job hjob => decide_eq_true (mem_newest hjob).2] at hfiltered
  exact (hfiltered.eq_of_length (hperm queueName).length_eq.symm).symm

end

namespace RecentTrace

def job (id : JobId) (queueName : String) (completedAt : Time) : CompletedJob :=
  ⟨id, queueName, none, .success, 1, 25, 0, completedAt, 1, none⟩

def jobs : List CompletedJob := [job 1 "mail" 10, job 2 "import" 20, job 3 "mail" 20, job 4 "mail" 30]

end RecentTrace

/-- A store of two jobs for each queue has dropped the first one. -/
theorem completedJobs_recent_two : ∃ store, createCompletedJobsStore (some (.finite 2)) = .ok store ∧
    (run store RecentTrace.jobs).getAll.filter (·.queueName = "mail") =
      [RecentTrace.job 4 "mail" 30, RecentTrace.job 3 "mail" 20] := by
  have hcreate : (createCompletedJobsStore (some (.finite 2))).toOption.any
      (·.maxJobsPerQueue = 2) = true := by decide
  cases hstore : createCompletedJobsStore (some (.finite 2)) with
  | error e => rw [hstore] at hcreate; cases hcreate
  | ok store =>
    rw [hstore] at hcreate
    have hmax : store.maxJobsPerQueue = 2 := of_decide_eq_true hcreate
    refine ⟨store, rfl, ?_⟩
    rw [(completedJobs_recent hstore RecentTrace.jobs).2.2 (by decide), hmax]
    rfl

/-! ## Counts -/

theorem nodup_eraseDups {α : Type*} [DecidableEq α] : (l : List α) → l.eraseDups.Nodup
  | [] => List.nodup_nil
  | a :: as => by
      rw [List.eraseDups_cons, List.nodup_cons]
      refine ⟨fun hmem => ?_, nodup_eraseDups _⟩
      rw [List.mem_eraseDups, List.mem_filter] at hmem
      simp at hmem
  termination_by l => l.length
  decreasing_by exact Nat.lt_succ_of_le (List.length_filter_le _ _)

/-- The entries counted under each of the names, and no name missing. -/
theorem sum_countP {α : Type*} (l : List α) (name : α → String) {names : List String}
    (hnodup : names.Nodup) (hmem : ∀ a ∈ l, name a ∈ names) :
    (names.map fun n => l.countP fun a => name a = n).sum = l.length := by
  have hcount : ∀ n, (l.countP fun a => name a = n) = Multiset.count n (l.map name : Multiset String) := by
    intro n
    rw [Multiset.coe_count, List.count, List.countP_map]
    exact List.countP_congr fun a _ => by simp
  simp only [hcount]
  rw [← List.sum_toFinset _ hnodup, Multiset.sum_count_eq_card fun a ha => ?_]
  · simp
  · rw [Multiset.mem_coe, List.mem_map] at ha
    obtain ⟨b, hb, rfl⟩ := ha
    exact List.mem_toFinset.mpr (hmem b hb)

/-- The states that `getJobStats` counts. -/
inductive Tally where
  | pending
  | running
  | failed
deriving DecidableEq

/--
Under which of them a job counts that `getJob` finds in its row: a job that waits, or that is to
be tried again, is pending.
-/
def tally : Standing → Option Tally
  | .pending _ | .retrying _ | .waiting _ => some .pending
  | .running _ _ => some .running
  | .failed _ => some .failed
  | .completed _ | .continued _ _ => none

/-- The rows of a task that count so; each was written at its own time. -/
def tallied (updatedAt : JobId → Time) (db : Db) (name : String) (t : Tally) : ℕ :=
  db.jobs.count fun id job => job.identifier = name && tally (liveStanding (updatedAt id) job) = some t

theorem tally_liveStanding (updatedAt : Time) (job : Job) : tally (liveStanding updatedAt job) =
    some (if job.lock.isSome then .running
      else if job.maxAttempts ≤ job.attempts then .failed else .pending) := by
  unfold liveStanding
  cases job.lock with
  | some lock => rfl
  | none =>
    by_cases hspent : job.maxAttempts ≤ job.attempts
    · simp [hspent, tally]
    · by_cases hretried : 0 < job.attempts <;> simp [hspent, hretried, tally]

/-- Every entry counts under one state. -/
theorem countP_tally {α : Type*} (l : List α) (p : α → Bool) (f : α → Tally) :
    (l.countP fun a => p a && f a = .pending) + (l.countP fun a => p a && f a = .running) +
      (l.countP fun a => p a && f a = .failed) = l.countP p := by
  induction l with
  | nil => rfl
  | cons a l ih =>
    simp only [List.countP_cons]
    rw [← ih]
    cases p a with
    | false => simp
    | true =>
      cases f a <;> simp <;> omega

section
variable {db : Db} {updatedAt : JobId → Time} {row : JobCountRow} {rows : List JobCountRow} {name : String}

theorem counts_of_mem (h : row ∈ queryJobCounts db) (updatedAt : JobId → Time) :
    row.pending = tallied updatedAt db row.taskIdentifier .pending ∧
      row.running = tallied updatedAt db row.taskIdentifier .running ∧
      row.failed = tallied updatedAt db row.taskIdentifier .failed := by
  obtain ⟨name, -, rfl⟩ := List.mem_map.mp h
  have hcount : ∀ (state : Job → Bool) (t : Tally),
      (∀ updatedAt job, state job = decide (tally (liveStanding updatedAt job) = some t)) →
      (db.jobs.count fun _ job => job.identifier = name && state job) = tallied updatedAt db name t := by
    intro state t hstate
    exact Table.count_congr fun kr _ => by rw [hstate]
  have hpending : ∀ updatedAt (job : Job), (job.lock.isNone && decide (job.attempts < job.maxAttempts)) =
      decide (tally (liveStanding updatedAt job) = some .pending) := by
    intro updatedAt job
    rw [tally_liveStanding]
    cases job.lock <;> by_cases hspent : job.maxAttempts ≤ job.attempts <;> simp [hspent, not_lt.mpr]
    exact not_le.mp hspent
  have hrunning : ∀ updatedAt (job : Job), job.lock.isSome =
      decide (tally (liveStanding updatedAt job) = some .running) := by
    intro updatedAt job
    rw [tally_liveStanding]
    cases job.lock <;> by_cases hspent : job.maxAttempts ≤ job.attempts <;> simp [hspent]
  have hfailed : ∀ updatedAt (job : Job), (job.lock.isNone && decide (job.maxAttempts ≤ job.attempts)) =
      decide (tally (liveStanding updatedAt job) = some .failed) := by
    intro updatedAt job
    rw [tally_liveStanding]
    cases job.lock <;> by_cases hspent : job.maxAttempts ≤ job.attempts <;> simp [hspent]
  exact ⟨hcount _ _ hpending, hcount _ _ hrunning, hcount _ _ hfailed⟩

theorem mem_queryJobCounts : name ∈ (queryJobCounts db).map (·.taskIdentifier) ↔
    ∃ id job, db.jobs.get? id = some job ∧ job.identifier = name := by
  have hnames : (queryJobCounts db).map (·.taskIdentifier) =
      (db.jobs.rows.map fun row => row.2.identifier).eraseDups := by
    rw [queryJobCounts, List.map_map]
    exact List.map_id' _
  rw [hnames, List.mem_eraseDups, List.mem_map]
  constructor
  · rintro ⟨⟨id, job⟩, hmem, rfl⟩
    exact ⟨id, job, Table.get?_eq_some_iff.mpr hmem, rfl⟩
  · rintro ⟨id, job, hget, rfl⟩
    exact ⟨(id, job), Table.get?_eq_some_iff.mp hget, rfl⟩

/-- A task without a row has no jobs. -/
theorem tallied_eq_zero (h : name ∉ (queryJobCounts db).map (·.taskIdentifier)) (t : Tally) :
    tallied updatedAt db name t = 0 := by
  refine Table.count_eq_zero_iff.mpr fun id job hget => ?_
  have hname : job.identifier ≠ name := fun hname => h (mem_queryJobCounts.mpr ⟨id, job, hget, hname⟩)
  rw [decide_eq_false hname, Bool.false_and]

/-- The counts of a name, whether or not a group has it. -/
theorem counts_of_last (hrows : rows.Perm (queryJobCounts db)) (name : String) (updatedAt : JobId → Time) :
    let pg := (rows.filter (·.taskIdentifier = name)).getLast?
    (pg.map (·.pending)).getD 0 = tallied updatedAt db name .pending ∧
      (pg.map (·.running)).getD 0 = tallied updatedAt db name .running ∧
      (pg.map (·.failed)).getD 0 = tallied updatedAt db name .failed := by
  dsimp only
  cases hlast : (rows.filter (·.taskIdentifier = name)).getLast? with
  | some row =>
    have hmem := List.mem_of_getLast? hlast
    rw [List.mem_filter, decide_eq_true_eq] at hmem
    obtain ⟨hmem, rfl⟩ := hmem
    exact counts_of_mem (hrows.mem_iff.mp hmem) updatedAt
  | none =>
    have hnone : name ∉ (queryJobCounts db).map (·.taskIdentifier) := by
      rw [← (hrows.map _).mem_iff, List.mem_map]
      rintro ⟨row, hmem, hname⟩
      have hnil := List.getLast?_eq_none_iff.mp hlast
      exact List.filter_eq_nil_iff.mp hnil row hmem (decide_eq_true hname)
    simp only [tallied_eq_zero hnone]
    exact ⟨rfl, rfl, rfl⟩

theorem sum_tallied (db : Db) (updatedAt : JobId → Time) {names : List String} (hnodup : names.Nodup)
    (hmem : ∀ id job, db.jobs.get? id = some job → job.identifier ∈ names) :
    (names.map fun name => tallied updatedAt db name .pending + tallied updatedAt db name .running +
      tallied updatedAt db name .failed).sum = db.jobs.rows.length := by
  rw [← sum_countP db.jobs.rows (fun row => row.2.identifier) hnodup
    fun row hrow => hmem row.1 row.2 (Table.get?_eq_some_iff.mpr hrow)]
  congr 1
  refine List.map_congr_left fun name _ => ?_
  simp only [tallied, Table.count, tally_liveStanding, Option.some.injEq]
  exact countP_tally _ _ _

end

/-! ## The statistics -/

theorem mem_objectKeys {names : List String} {name : String} : name ∈ objectKeys names ↔ name ∈ names := by
  simp only [objectKeys, List.mem_append, List.mem_mergeSort, List.mem_filter]
  cases (arrayIndex? name) <;> simp

/-- The jobs that the store of finished jobs still keeps of a queue. -/
def recent (completedJobs : Option CompletedJobsStore) (jobs : List CompletedJob) (name : String) :
    List CompletedJob :=
  match completedJobs with
  | none => []
  | some store => newest store.maxJobsPerQueue jobs name

section
variable {option : Option (Option (Option JsNumber))} {completedJobs : Option CompletedJobsStore}

theorem empty_of_resolve {store : CompletedJobsStore} (h : resolveCompletedJobsStore option = .ok (some store)) :
    store.completedJobs = ∅ := by
  unfold resolveCompletedJobsStore at h
  split at h
  · cases h
  · cases h
  · rename_i max
    cases hcreate : createCompletedJobsStore max with
    | error e => rw [hcreate] at h; cases h
    | ok store' =>
      rw [hcreate] at h
      obtain rfl := Option.some.inj (Except.ok.inj h)
      exact empty_of_create hcreate

/-- What `mergeJobStats` finds of a name in the store's statistics. -/
private theorem ring_recent (h : resolveCompletedJobsStore option = .ok completedJobs)
    (jobs : List CompletedJob) (name : String) :
    let ring := ((completedJobs.map (run · jobs)).map (·.getStats)).getD []
    let mem := (ring.find? fun queue => queue.1 = name).map Prod.snd
    (mem.map (·.completed)).getD 0 = (recent completedJobs jobs name).countP (·.status = .success) ∧
      (mem.map (·.failed)).getD 0 = (recent completedJobs jobs name).countP (·.status = .failed) := by
  dsimp only
  cases completedJobs with
  | none => exact ⟨rfl, rfl⟩
  | some store =>
    have hempty := empty_of_resolve h
    have hmem : ((run store jobs).getStats.find? fun queue => queue.1 = name).map Prod.snd =
        ((run store jobs).completedJobs.get? name).map statsOf := by
      rw [CompletedJobsStore.getStats, List.find?_map, Option.map_map, Table.get?, Option.map_map]
      rfl
    simp only [Option.map_some, Option.getD_some, recent, hmem, ← (jobsOf_run hempty name).1,
      CompletedJobsStore.jobsOf]
    cases (run store jobs).completedJobs.get? name <;> exact ⟨rfl, rfl⟩

private theorem mem_ring (h : resolveCompletedJobsStore option = .ok completedJobs)
    (jobs : List CompletedJob) (name : String) :
    name ∈ (((completedJobs.map (run · jobs)).map (·.getStats)).getD []).map Prod.fst ↔
      completedJobs.isSome = true ∧ ∃ job ∈ jobs, job.queueName = name := by
  cases completedJobs with
  | none => simp
  | some store =>
    have hempty := empty_of_resolve h
    have hnames : (run store jobs).getStats.map Prod.fst = (run store jobs).completedJobs.rows.map Prod.fst := by
      rw [CompletedJobsStore.getStats, List.map_map]
      rfl
    rw [← isSome_run hempty]
    simp only [Option.map_some, Option.getD_some, hnames, Table.mem_map_fst, Option.isSome_some, true_and]

/--
`getJobStats` has one row for each queue, each task with jobs and each queue with finished jobs.
It counts every job of the database once, as running or failed if `getJob` says so, else as pending,
and of the finished ones those that the store still keeps.
-/
theorem jobStats_account {db : Db} {rows : List JobCountRow} (hrows : rows.Perm (queryJobCounts db))
    (hstore : resolveCompletedJobsStore option = .ok completedJobs) (jobs : List CompletedJob)
    (queues : List Registry.QueueContract) (updatedAt : JobId → Time) :
    let stats := getJobStats queues rows (completedJobs.map (run · jobs))
    (stats.map (·.taskIdentifier)).Nodup ∧
      (∀ name, name ∈ stats.map (·.taskIdentifier) ↔ name ∈ queues.flatMap (·.taskNames) ∨
        (∃ id job, db.jobs.get? id = some job ∧ job.identifier = name) ∨
        completedJobs.isSome = true ∧ ∃ job ∈ jobs, job.queueName = name) ∧
      (∀ row ∈ stats, row.pending = tallied updatedAt db row.taskIdentifier .pending ∧
        row.running = tallied updatedAt db row.taskIdentifier .running ∧
        row.failed = tallied updatedAt db row.taskIdentifier .failed ∧
        row.recentCompleted =
          (recent completedJobs jobs row.taskIdentifier).countP (·.status = .success) ∧
        row.recentFailed = (recent completedJobs jobs row.taskIdentifier).countP (·.status = .failed)) ∧
      (stats.map fun row => row.pending + row.running + row.failed).sum = db.jobs.rows.length := by
  intro stats
  have hnames : stats.map (·.taskIdentifier) = (queues.flatMap (·.taskNames) ++
      rows.map (·.taskIdentifier) ++ objectKeys
        ((((completedJobs.map (run · jobs)).map (·.getStats)).getD []).map Prod.fst)).eraseDups := by
    simp only [stats, getJobStats, mergeJobStats, List.map_map]
    exact List.map_id' _
  have hmem : ∀ name, name ∈ stats.map (·.taskIdentifier) ↔ name ∈ queues.flatMap (·.taskNames) ∨
      (∃ id job, db.jobs.get? id = some job ∧ job.identifier = name) ∨
      completedJobs.isSome = true ∧ ∃ job ∈ jobs, job.queueName = name := by
    intro name
    rw [hnames, List.mem_eraseDups, List.mem_append, List.mem_append, mem_objectKeys, mem_ring hstore,
      (hrows.map _).mem_iff, mem_queryJobCounts, or_assoc]
  have hrow : ∀ row ∈ stats, row.pending = tallied updatedAt db row.taskIdentifier .pending ∧
      row.running = tallied updatedAt db row.taskIdentifier .running ∧
      row.failed = tallied updatedAt db row.taskIdentifier .failed ∧
      row.recentCompleted = (recent completedJobs jobs row.taskIdentifier).countP (·.status = .success) ∧
      row.recentFailed = (recent completedJobs jobs row.taskIdentifier).countP (·.status = .failed) := by
    intro row hrow
    obtain ⟨name, -, rfl⟩ := List.mem_map.mp hrow
    obtain ⟨hpending, hrunning, hfailed⟩ := counts_of_last hrows name updatedAt
    obtain ⟨hcompleted, hrecent⟩ := ring_recent hstore jobs name
    exact ⟨hpending, hrunning, hfailed, hcompleted, hrecent⟩
  have hnodup : (stats.map (·.taskIdentifier)).Nodup := hnames ▸ nodup_eraseDups _
  refine ⟨hnodup, hmem, hrow, ?_⟩
  have hcovered : ∀ id job, db.jobs.get? id = some job → job.identifier ∈ stats.map (·.taskIdentifier) :=
    fun id job hget => (hmem _).mpr (.inr (.inl ⟨id, job, hget, rfl⟩))
  rw [← sum_tallied db updatedAt hnodup hcovered, List.map_map]
  congr 1
  refine List.map_congr_left fun row hmem' => ?_
  obtain ⟨hpending, hrunning, hfailed, -⟩ := hrow row hmem'
  simp only [Function.comp_apply]
  rw [hpending, hrunning, hfailed]

end

namespace StatsTrace

def spec (identifier : String) : JobSpec :=
  ⟨identifier, Payload.injectTraceContext none none, none, none, some 3, none, none, none, .replace⟩

def row (identifier : String) (attempts : ℕ) (lock : Option Lock) : Job :=
  { newJob 0 (spec identifier) with attempts, lock }

/-- A fresh, a running and a retrying mail, and an import that has failed. -/
def db : Db :=
  { Db.initial with
    nextId := 5
    jobs := (((Db.initial.jobs.insert 1 (row "mail" 0 none)).insert 2 (row "mail" 1 (some ⟨"p", 7⟩))).insert
      3 (row "mail" 2 none)).insert 4 (row "import" 3 none) }

/-- A queue with jobs and one without. -/
def queues : List Registry.QueueContract :=
  [⟨"mail", true, none, none, none, none, none, none, none⟩,
    ⟨"report", false, some (.patterns ["0 5 * * *"]), none, none, none, none, none, none⟩]

/-- The store keeps the last job of each queue; the tasks of the last two are not registered. -/
def finished : List CompletedJob :=
  [RecentTrace.job 5 "mail" 10, { RecentTrace.job 6 "mail" 20 with status := .failed },
    RecentTrace.job 7 "page" 30]

end StatsTrace

/-- Jobs of every state, a queue without jobs, and a store that has dropped a job. -/
theorem jobStats_account_stored : ∃ store,
    resolveCompletedJobsStore (some (some (some (.finite 1)))) = .ok (some store) ∧
    (∀ row ∈ getJobStats StatsTrace.queues (queryJobCounts StatsTrace.db).reverse
        (some (run store StatsTrace.finished)),
      (row.taskIdentifier = "mail" → row.pending = 2 ∧ row.running = 1 ∧ row.failed = 0 ∧
        row.recentCompleted = 0 ∧ row.recentFailed = 1) ∧
      (row.taskIdentifier = "import" → row.failed = 1)) ∧
    ((getJobStats StatsTrace.queues (queryJobCounts StatsTrace.db).reverse
      (some (run store StatsTrace.finished))).map fun row => row.pending + row.running + row.failed).sum = 4 := by
  have hcreate : (createCompletedJobsStore (some (.finite 1))).toOption.any
      (·.maxJobsPerQueue = 1) = true := by decide
  cases hstore : createCompletedJobsStore (some (.finite 1)) with
  | error e => rw [hstore] at hcreate; cases hcreate
  | ok store =>
    rw [hstore] at hcreate
    have hmax : store.maxJobsPerQueue = 1 := of_decide_eq_true hcreate
    have hresolve : resolveCompletedJobsStore (some (some (some (.finite 1)))) = .ok (some store) := by
      rw [resolveCompletedJobsStore, hstore]
      rfl
    obtain ⟨-, -, hrows, hsum⟩ := jobStats_account (List.reverse_perm (queryJobCounts StatsTrace.db))
      hresolve StatsTrace.finished StatsTrace.queues fun _ => 0
    refine ⟨store, hresolve, fun row hrow => ?_, hsum⟩
    obtain ⟨hpending, hrunning, hfailed, hcompleted, hrecent⟩ := hrows row hrow
    rw [recent, hmax] at hcompleted hrecent
    rw [hpending, hrunning, hfailed, hcompleted, hrecent]
    refine ⟨fun hname => ?_, fun hname => ?_⟩
    · rw [hname]
      decide
    · rw [hname]
      decide

end BetterGraphileWorker.JobStats
