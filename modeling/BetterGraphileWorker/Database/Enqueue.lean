-- SUMMARY: What enqueueing does to the rows that exist: ids stay fresh, keys stay unique, a locked row keeps its payload.
import BetterGraphileWorker.Database.PrivateJobs

/-!
# Enqueueing

`Readded` is what any number of `add_job` calls can do to an existing row, and
`Enqueued` what they do to the database. Both are preorders, so a batch of children
inherits them from one call.
-/

namespace BetterGraphileWorker

/-- Ids come from a sequence: every row's id was taken from it. -/
def Db.IdsBelow (db : Db) : Prop := ∀ id job, db.jobs.get? id = some job → id < db.nextId

/-- The unique index on `key`. -/
def Db.KeysUnique (db : Db) : Prop :=
  ∀ id id' job job' key, db.jobs.get? id = some job → db.jobs.get? id' = some job' →
    job.key = some key → job'.key = some key → id = id'

/-- What re-adding its key can do to a row. -/
structure Readded (job job' : Job) : Prop where
  lock : job'.lock = job.lock
  generation_le : job.generation ≤ job'.generation
  kept : job'.generation = job.generation → job' = job ∨ job' = job.superseded
  locked : job.lock.isSome → job'.generation = job.generation
  spent : job.available = false → job'.generation = job.generation
  keyless : job.key = none → job' = job
  key : job'.key = job.key ∨ job'.key = none
  restarted : job'.generation ≠ job.generation → job'.live = true → job'.attempts = 0

theorem Job.superseded_not_available {job : Job} : job.superseded.available = false := by
  simp [Job.available, Job.live, Job.superseded]

namespace Readded

variable {job job' job'' : Job}

theorem refl (job : Job) : Readded job job :=
  ⟨rfl, le_refl _, fun _ => .inl rfl, fun _ => rfl, fun _ => rfl, fun _ => rfl, .inl rfl,
    fun h => absurd rfl h⟩

theorem trans (h : Readded job job') (h' : Readded job' job'') : Readded job job'' where
  lock := h'.lock.trans h.lock
  generation_le := h.generation_le.trans h'.generation_le
  kept hgen := by
    have hle := h.generation_le
    have hle' := h'.generation_le
    rcases h.kept (by omega) with rfl | rfl
    · exact h'.kept hgen
    · exact .inr (h'.keyless rfl)
  locked hlock := by rw [h'.locked (h.lock ▸ hlock), h.locked hlock]
  spent hspent := by
    have hgen := h.spent hspent
    rw [← hgen]
    apply h'.spent
    rcases h.kept hgen with rfl | rfl
    · exact hspent
    · exact Job.superseded_not_available
  keyless hkey := by
    obtain rfl := h.keyless hkey
    exact h'.keyless hkey
  key := by
    rcases h'.key with hk | hk
    · rw [hk]; exact h.key
    · exact .inr hk
  restarted hgen hlive := by
    by_cases hgen' : job''.generation = job'.generation
    · rcases h'.kept hgen' with rfl | rfl
      · exact h.restarted hgen hlive
      · simp [Job.live, Job.superseded] at hlive
    · exact h'.restarted hgen' hlive

/-- A locked row keeps everything but its key and the attempts it has left. -/
theorem of_locked (h : Readded job job') (hlock : job.lock.isSome) :
    job' = job ∨ job' = job.superseded :=
  h.kept (h.locked hlock)

end Readded

/-! ## One call of `add_job` -/

/-- What the plan does to one row that exists. -/
def AddPlan.row (now : Time) (spec : JobSpec) (id : JobId) (job : Job) : AddPlan → Job
  | .replace id' => if id = id' then job.replaceWith now spec else job
  | .supersede id' => if id = id' then job.superseded else job
  | .insert | .dedupe _ => job

section
variable {now : Time} {spec : JobSpec} {db : Db} {id : JobId}

theorem AddPlan.get?_modify (plan : AddPlan) :
    (plan.modify now spec db).jobs.get? id = (db.jobs.get? id).map fun job => plan.row now spec id job := by
  cases plan with
  | insert => simp [AddPlan.modify, AddPlan.row]
  | dedupe => simp [AddPlan.modify, AddPlan.row]
  | replace id' =>
      simp only [AddPlan.modify, AddPlan.row, Db.updateJob_jobs, Table.get?_update]
      split <;> simp
  | supersede id' =>
      simp only [AddPlan.modify, AddPlan.row, Db.updateJob_jobs, Table.get?_update]
      split <;> simp

@[simp] theorem AddPlan.modify_nextId (plan : AddPlan) :
    (plan.modify now spec db).nextId = db.nextId := by
  cases plan <;> rfl

@[simp] theorem AddPlan.modify_groups (plan : AddPlan) :
    (plan.modify now spec db).groups = db.groups := by
  cases plan <;> rfl

@[simp] theorem AddPlan.modify_waits (plan : AddPlan) :
    (plan.modify now spec db).waits = db.waits := by
  cases plan <;> rfl

@[simp] theorem AddPlan.modify_outcomes (plan : AddPlan) :
    (plan.modify now spec db).outcomes = db.outcomes := by
  cases plan <;> rfl

@[simp] theorem AddPlan.modify_lanes (plan : AddPlan) :
    (plan.modify now spec db).lanes = db.lanes := by
  cases plan <;> rfl

theorem addJob_snd (now : Time) (spec : JobSpec) (db : Db) : (addJob now spec db).2 = ((planAdd db spec).existing).getD db.nextId := by
  simp only [addJob]
  split <;> simp_all

theorem addJob_nextId : (addJob now spec db).1.nextId =
    if (planAdd db spec).existing = none then db.nextId + 1 else db.nextId := by
  simp only [addJob]
  split <;> simp_all [Db.insertJob]

@[simp] theorem addJob_groups : (addJob now spec db).1.groups = db.groups := by
  simp only [addJob]
  split <;> simp [Db.insertJob]

@[simp] theorem addJob_waits : (addJob now spec db).1.waits = db.waits := by
  simp only [addJob]
  split <;> simp [Db.insertJob]

@[simp] theorem addJob_outcomes : (addJob now spec db).1.outcomes = db.outcomes := by
  simp only [addJob]
  split <;> simp [Db.insertJob]

@[simp] theorem addJob_lanes : (addJob now spec db).1.lanes = db.lanes := by
  simp only [addJob]
  split <;> simp [Db.insertJob]

/-- The rows after `add_job`: the existing ones as its plan changes them, and a new one. -/
theorem get?_addJob : (addJob now spec db).1.jobs.get? id =
    if id = db.nextId ∧ (planAdd db spec).existing = none then some (newJob now spec)
    else (db.jobs.get? id).map fun job => (planAdd db spec).row now spec id job := by
  simp only [addJob]
  split
  · rename_i h
    simp [h, AddPlan.get?_modify]
  · rename_i h
    simp [h, Db.insertJob, Table.get?_insert, AddPlan.get?_modify]

/-- The plan names the row that holds the key. -/
def AddPlan.Fits (db : Db) (spec : JobSpec) : AddPlan → Prop
  | .insert => ∀ key, spec.jobKey = some key → ∀ id job, db.jobs.get? id = some job →
      job.key ≠ some key
  | .replace id => ∃ job, db.jobs.get? id = some job ∧ job.key = spec.jobKey ∧
      job.key.isSome ∧ job.available = true
  | .supersede id => ∃ job, db.jobs.get? id = some job ∧ job.key = spec.jobKey ∧
      job.key.isSome ∧ job.available = false
  | .dedupe id => (∃ job, db.jobs.get? id = some job ∧ job.key = spec.jobKey ∧ job.key.isSome) ∧
      spec.jobKeyMode = .unsafeDedupe

theorem planAdd_fits (db : Db) (spec : JobSpec) : (planAdd db spec).Fits db spec := by
  unfold planAdd
  cases hkey : spec.jobKey with
  | none => simp [AddPlan.Fits, hkey]
  | some key =>
    dsimp only
    split
    · rename_i hfind
      intro key' hkey' id job hget hjob
      have hnone := Table.find?_eq_none_iff.mp hfind id job hget
      simp_all
    · rename_i id job hfind
      obtain ⟨hget, hjob⟩ := Table.get?_of_find? hfind
      have hjob' : job.key = some key := by simpa using hjob
      have hspec : job.key = spec.jobKey := by rw [hjob', hkey]
      by_cases hmode : spec.jobKeyMode = .unsafeDedupe
      · rw [if_pos hmode]
        exact ⟨⟨job, hget, hspec, by simp [hjob']⟩, hmode⟩
      · rw [if_neg hmode]
        cases hav : job.available
        · exact ⟨job, hget, hspec, by simp [hjob'], hav⟩
        · exact ⟨job, hget, hspec, by simp [hjob'], hav⟩

theorem readded_row {job : Job} (hid : db.jobs.get? id = some job) :
    Readded job ((planAdd db spec).row now spec id job) := by
  have hfits := planAdd_fits db spec
  cases hplan : planAdd db spec with
  | insert => exact .refl _
  | dedupe => exact .refl _
  | replace id' =>
      rw [hplan] at hfits
      obtain ⟨job', hget, -, hkey, hav⟩ := hfits
      by_cases hid' : id = id'
      · subst hid'
        obtain rfl : job' = job := by simpa [hid] using hget.symm
        rw [AddPlan.row, if_pos rfl]
        have hlock : job'.lock = none := by
          simpa using (Bool.and_eq_true_iff.mp hav).1
        refine ⟨rfl, Nat.le_succ _, fun h => ?_, fun h => ?_, fun h => ?_, fun h => ?_, .inl rfl,
          fun _ _ => rfl⟩
        · exact absurd h (Nat.succ_ne_self _)
        · simp [hlock] at h
        · simp [hav] at h
        · simp [h] at hkey
      · rw [AddPlan.row, if_neg hid']
        exact .refl _
  | supersede id' =>
      rw [hplan] at hfits
      obtain ⟨job', hget, -, hkey, -⟩ := hfits
      by_cases hid' : id = id'
      · subst hid'
        obtain rfl : job' = job := by simpa [hid] using hget.symm
        rw [AddPlan.row, if_pos rfl]
        refine ⟨rfl, le_refl _, fun _ => .inr rfl, fun _ => rfl, fun _ => rfl, fun h => ?_, .inr rfl,
          fun h => absurd rfl h⟩
        simp [h] at hkey
      · rw [AddPlan.row, if_neg hid']
        exact .refl _

/-- Re-adding the key of a locked job takes the key from it. -/
theorem planAdd_of_locked {job : Job} {key : String} (hkeys : db.KeysUnique)
    (hrow : db.jobs.get? id = some job) (hlock : job.lock.isSome) (hkey : job.key = some key)
    (hspec : spec.jobKey = some key) (hmode : spec.jobKeyMode = .replace) :
    planAdd db spec = .supersede id := by
  have hfits := planAdd_fits db spec
  have hunique : ∀ id' job', db.jobs.get? id' = some job' → job'.key = spec.jobKey → id' = id :=
    fun id' job' hrow' hkey' => hkeys id' id job' job key hrow' hrow (hkey'.trans hspec) hkey
  cases hplan : planAdd db spec with
  | insert =>
      rw [hplan] at hfits
      exact absurd hkey (hfits key hspec id job hrow)
  | replace id' =>
      rw [hplan] at hfits
      obtain ⟨job', hrow', hkey', -, hav⟩ := hfits
      obtain rfl := hunique id' job' hrow' hkey'
      obtain rfl : job' = job := by simpa [hrow] using hrow'.symm
      have hnone : job'.lock.isNone = true := (Bool.and_eq_true_iff.mp hav).1
      simp_all
  | supersede id' =>
      rw [hplan] at hfits
      obtain ⟨job', hrow', hkey', -⟩ := hfits
      rw [hunique id' job' hrow' hkey']
  | dedupe id' =>
      rw [hplan] at hfits
      have hdedupe := hfits.2
      rw [hmode] at hdedupe
      cases hdedupe

/-- A call without a key inserts a row. -/
theorem planAdd_of_keyless (h : spec.jobKey = none) : planAdd db spec = .insert := by
  simp [planAdd, h]

/-! ## Batches -/

end

/-- What enqueueing any number of jobs does to the database. -/
structure Enqueued (db db' : Db) : Prop where
  nextId_le : db.nextId ≤ db'.nextId
  groups : db'.groups = db.groups
  waits : db'.waits = db.waits
  outcomes : db'.outcomes = db.outcomes
  lanes : db'.lanes = db.lanes
  kept : ∀ id job, db.jobs.get? id = some job →
    ∃ job', db'.jobs.get? id = some job' ∧ Readded job job'
  fresh : ∀ id job', db'.jobs.get? id = some job' → db.jobs.get? id = none →
    db.nextId ≤ id ∧ job'.lock = none
  unspent : ∀ id job', db'.jobs.get? id = some job' → db.jobs.get? id = none →
    job'.live = true → job'.attempts = 0
  idsBelow : db'.IdsBelow
  keysUnique : db.KeysUnique → db'.KeysUnique

namespace Enqueued

variable {db db' db'' : Db}

theorem refl (h : db.IdsBelow) : Enqueued db db where
  nextId_le := le_refl _
  groups := rfl
  waits := rfl
  outcomes := rfl
  lanes := rfl
  kept _ job hget := ⟨job, hget, .refl job⟩
  fresh _ _ hget hnone := by simp [hget] at hnone
  unspent _ _ hget hnone := by simp [hget] at hnone
  idsBelow := h
  keysUnique h := h

theorem trans (h : Enqueued db db') (h' : Enqueued db' db'') : Enqueued db db'' where
  nextId_le := h.nextId_le.trans h'.nextId_le
  groups := h'.groups.trans h.groups
  waits := h'.waits.trans h.waits
  outcomes := h'.outcomes.trans h.outcomes
  lanes := h'.lanes.trans h.lanes
  kept id job hget := by
    obtain ⟨job', hget', hr⟩ := h.kept id job hget
    obtain ⟨job'', hget'', hr'⟩ := h'.kept id job' hget'
    exact ⟨job'', hget'', hr.trans hr'⟩
  fresh id job'' hget hnone := by
    cases hmid : db'.jobs.get? id with
    | none =>
      obtain ⟨hle, hlock⟩ := h'.fresh id job'' hget hmid
      exact ⟨h.nextId_le.trans hle, hlock⟩
    | some job' =>
      obtain ⟨hle, hlock⟩ := h.fresh id job' hmid hnone
      obtain ⟨job₂, hget₂, hr⟩ := h'.kept id job' hmid
      obtain rfl : job₂ = job'' := by simpa [hget] using hget₂.symm
      exact ⟨hle, hr.lock.trans hlock⟩
  unspent id job'' hget hnone hlive := by
    cases hmid : db'.jobs.get? id with
    | none => exact h'.unspent id job'' hget hmid hlive
    | some job' =>
      obtain ⟨job₂, hget₂, hr⟩ := h'.kept id job' hmid
      obtain rfl : job₂ = job'' := by simpa [hget] using hget₂.symm
      by_cases hgen : job₂.generation = job'.generation
      · rcases hr.kept hgen with rfl | rfl
        · exact h.unspent id _ hmid hnone hlive
        · simp [Job.live, Job.superseded] at hlive
      · exact hr.restarted hgen hlive
  idsBelow := h'.idsBelow
  keysUnique hk := h'.keysUnique (h.keysUnique hk)

end Enqueued

section
variable {now : Time} {spec : JobSpec} {db : Db} {id : JobId}

private theorem get?_nextId (h : db.IdsBelow) : db.jobs.get? db.nextId = none := by
  cases hget : db.jobs.get? db.nextId with
  | none => rfl
  | some job => exact absurd (h _ _ hget) (lt_irrefl _)

/-- A row after `add_job` is the new row, or an existing row as the plan changes it. -/
theorem addJob_row_cases {job' : Job} (hget : (addJob now spec db).1.jobs.get? id = some job') :
    (id = db.nextId ∧ (planAdd db spec).existing = none ∧ job' = newJob now spec) ∨
      ∃ job, db.jobs.get? id = some job ∧ job' = (planAdd db spec).row now spec id job := by
  rw [get?_addJob] at hget
  split at hget
  · rename_i h
    exact .inl ⟨h.1, h.2, by simpa using hget.symm⟩
  · obtain ⟨job, hjob, rfl⟩ := Option.map_eq_some_iff.mp hget
    exact .inr ⟨job, hjob, rfl⟩

theorem addJob_kept (now : Time) (spec : JobSpec) (hids : db.IdsBelow) {job : Job}
    (hget : db.jobs.get? id = some job) :
    (addJob now spec db).1.jobs.get? id = some ((planAdd db spec).row now spec id job) := by
  rw [get?_addJob, if_neg, hget]
  · rfl
  · rintro ⟨rfl, -⟩
    simp [get?_nextId hids] at hget

theorem AddPlan.row_key (now : Time) (spec : JobSpec) (id : JobId) (plan : AddPlan) (job : Job) :
    (plan.row now spec id job).key = job.key ∨ (plan.row now spec id job).key = none := by
  cases plan <;> simp only [AddPlan.row] <;> try split
  all_goals simp [Job.replaceWith, Job.superseded]

theorem addJob_keysUnique (hk : db.KeysUnique) : (addJob now spec db).1.KeysUnique := by
  -- An existing row that still holds the new row's key contradicts the plan.
  have hold : ∀ i job key, (planAdd db spec).existing = none → spec.jobKey = some key →
      db.jobs.get? i = some job → ((planAdd db spec).row now spec i job).key ≠ some key := by
    intro i job key hnew hspec hget hkey
    have hjob : job.key = some key := by
      rcases AddPlan.row_key now spec i (planAdd db spec) job with h | h
      · rw [← h, hkey]
      · simp [h] at hkey
    have hfits := planAdd_fits db spec
    cases hplan : planAdd db spec with
    | insert =>
        rw [hplan] at hfits
        exact hfits key hspec i job hget hjob
    | supersede id' =>
        rw [hplan] at hfits hkey
        obtain ⟨job', hget', hkey', -⟩ := hfits
        obtain rfl : i = id' := hk i id' job job' key hget hget' hjob (hkey'.trans hspec)
        simp [AddPlan.row, Job.superseded] at hkey
    | replace id' => simp [hplan, AddPlan.existing] at hnew
    | dedupe id' => simp [hplan, AddPlan.existing] at hnew
  intro i i' job job' key hget hget' hkey hkey'
  rcases addJob_row_cases hget with ⟨rfl, hnew, rfl⟩ | ⟨j, hj, rfl⟩ <;>
    rcases addJob_row_cases hget' with ⟨rfl, hnew', rfl⟩ | ⟨j', hj', rfl⟩
  · rfl
  · exact absurd hkey' (hold i' j' key hnew hkey hj')
  · exact absurd hkey (hold i j key hnew' hkey' hj)
  · have hback : ∀ i₀ j₀, ((planAdd db spec).row now spec i₀ j₀).key = some key →
        j₀.key = some key := fun i₀ j₀ h => by
      rcases AddPlan.row_key now spec i₀ (planAdd db spec) j₀ with h' | h'
      · rw [← h', h]
      · simp [h'] at h
    exact hk i i' j j' key hj hj' (hback i j hkey) (hback i' j' hkey')

theorem enqueued_addJob (now : Time) (spec : JobSpec) (hids : db.IdsBelow) : Enqueued db (addJob now spec db).1 where
  nextId_le := by
    rw [addJob_nextId]
    split
    · exact Nat.le_succ _
    · exact le_refl _
  groups := addJob_groups
  waits := addJob_waits
  outcomes := addJob_outcomes
  lanes := addJob_lanes
  kept id job hget := ⟨_, addJob_kept now spec hids hget, readded_row hget⟩
  fresh id job' hget hnone := by
    rcases addJob_row_cases hget with ⟨rfl, -, rfl⟩ | ⟨job, hjob, -⟩
    · exact ⟨le_refl _, rfl⟩
    · simp [hnone] at hjob
  unspent id job' hget hnone _ := by
    rcases addJob_row_cases hget with ⟨rfl, -, rfl⟩ | ⟨job, hjob, -⟩
    · rfl
    · simp [hnone] at hjob
  idsBelow := by
    intro i job' hget
    rw [addJob_nextId]
    rcases addJob_row_cases hget with ⟨rfl, hnew, -⟩ | ⟨job, hjob, -⟩
    · simp [hnew]
    · split
      · exact Nat.lt_succ_of_lt (hids i job hjob)
      · exact hids i job hjob
  keysUnique := addJob_keysUnique

theorem enqueued_enqueueChild (now : Time) (queue : String) (input : Option Json)
    (prepared : Prepared) (hids : db.IdsBelow) : Enqueued db (enqueueChild now queue input db prepared).1 := by
  cases prepared with
  | add options => exact enqueued_addJob _ _ hids
  | duplicate id => exact .refl hids

theorem enqueued_enqueueChildren (now : Time) (queue : String)
    (children : List (Option Json × Prepared)) (hids : db.IdsBelow) : Enqueued db (enqueueChildren now queue children db).1 := by
  induction children generalizing db with
  | nil => exact .refl hids
  | cons child children ih =>
    have h := enqueued_enqueueChild now queue child.1 child.2 hids
    exact h.trans (ih h.idsBelow)

theorem length_enqueueChildren {queue : String} {children : List (Option Json × Prepared)} :
    (enqueueChildren now queue children db).2.length = children.length := by
  induction children generalizing db with
  | nil => rfl
  | cons child children ih => simpa [enqueueChildren] using ih

end

end BetterGraphileWorker
