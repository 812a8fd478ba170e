-- SUMMARY: addJobsSql: one add_jobs call whose rows are matched back to the specs by key or by content.
import Mathlib.Data.Finset.Card
import BetterGraphileWorker.Library.Ranks
import BetterGraphileWorker.Database.Tables

/-!
# Batches without idempotency keys

Graphile's `add_jobs` may insert and return its rows in any order. The statement joins
them to the specs: keyed rows by their key, unkeyed ones by a fingerprint of their
columns and their number among the rows with the same fingerprint.
-/

namespace BetterGraphileWorker

/-! ## Timestamps -/

/-- Year, month and day of a day number, counted from 1970-01-01. -/
def civilDate (days : ℤ) : ℤ × ℤ × ℤ :=
  -- Years start in March here, and eras of 400 years on 0000-03-01.
  let z := days + 719468
  let era := z / 146097
  let dayOfEra := z % 146097
  let yearOfEra := (dayOfEra - dayOfEra / 1460 + dayOfEra / 36524 - dayOfEra / 146096) / 365
  let dayOfYear := dayOfEra - (365 * yearOfEra + yearOfEra / 4 - yearOfEra / 100)
  let monthFromMarch := (5 * dayOfYear + 2) / 153
  let day := dayOfYear - (153 * monthFromMarch + 2) / 5 + 1
  let month := if monthFromMarch < 10 then monthFromMarch + 3 else monthFromMarch - 9
  (yearOfEra + era * 400 + (if month ≤ 2 then 1 else 0), month, day)

def padded (width : ℕ) (n : ℤ) : String :=
  let digits := toString n.natAbs
  String.ofList (List.replicate (width - digits.length) '0') ++ digits

/-- `Date.prototype.toISOString` of a time in ms. -/
def toISOString (ms : ℤ) : String :=
  let (year, month, day) := civilDate (ms / 86400000)
  let rest := ms % 86400000
  let yearText :=
    if 0 ≤ year ∧ year ≤ 9999 then padded 4 year
    else (if year < 0 then "-" else "+") ++ padded 6 year
  yearText ++ "-" ++ padded 2 month ++ "-" ++ padded 2 day ++ "T" ++ padded 2 (rest / 3600000) ++ ":" ++
    padded 2 (rest / 60000 % 60) ++ ":" ++ padded 2 (rest / 1000 % 60) ++ "." ++
    padded 3 (rest % 1000) ++ "Z"

example : toISOString 951827696789 = "2000-02-29T12:34:56.789Z" := by decide
example : toISOString (-62198755200001) = "-000002-12-31T23:59:59.999Z" := by decide

/-! ## Specs -/

/-- `runAt`: a valid Date or a text. -/
inductive RunAt (τ : Type) where
  | date (ms : ℤ)
  | text (value : τ)

/-- `timestamp`, where `ofName` makes ASCII texts texts of the spec. -/
def RunAt.timestamp {τ : Type} (ofName : String → τ) : RunAt τ → τ
  | .date ms => ofName (toISOString ms)
  | .text value => value

def timestamp (runAt : RunAt String) : String := runAt.timestamp id

structure AddJobsJobSpec where
  identifier : String
  /-- `JSON.stringify(payload)`; `none` when that is undefined. -/
  payload : Option String
  queueName : Option String
  runAt : Option (RunAt String)
  maxAttempts : Option ℤ
  jobKey : Option String
  priority : Option ℤ
  flags : Option (List String)

/-- What `assertDistinguishable` serializes; undefined items become `null`. -/
structure SpecContent where
  payload : String
  runAt : Option String
  maxAttempts : Option ℤ
  priority : Option ℤ
  flags : Option (List String)
deriving DecidableEq

namespace AddJobsJobSpec

variable (spec : AddJobsJobSpec)

def content : SpecContent :=
  ⟨spec.payload.getD "null", spec.runAt.map timestamp, spec.maxAttempts, spec.priority, spec.flags⟩

/-- The task and the lane. -/
def target : String × Option String := (spec.identifier, spec.queueName)

/-- `if (spec.jobKey)`. -/
def hasJobKey : Bool := spec.jobKey.any (· ≠ "")

end AddJobsJobSpec

/-- The loop of `assertDistinguishable`; it throws where this is false. -/
def distinguishable (seen : List (SpecContent × String × Option String)) :
    List AddJobsJobSpec → Bool
  | [] => true
  | spec :: specs =>
    if spec.hasJobKey then distinguishable seen specs
    else if (seen.lookup spec.content).getD spec.target = spec.target then
      distinguishable ((spec.content, spec.target) :: seen) specs
    else false

def assertDistinguishable (specs : List AddJobsJobSpec) : Bool := distinguishable [] specs

/-! ## The statement -/

/-- The columns of a fingerprint. Its text is that of a JSON array and a JSON value. -/
structure JobColumns where
  runAt : Time
  maxAttempts : ℤ
  priority : ℤ
  flags : Finset String
  payload : String
deriving DecidableEq

/-- A row that `add_jobs` returns. -/
structure JobRow where
  id : JobId
  identifier : String
  queueName : Option String
  key : Option String
  columns : JobColumns

/-- The texts `'k' || key` and `'c' || row_number || fp`. -/
inductive RowMatch (κ φ : Type) where
  | key (key : κ)
  | content (number : ℕ) (fp : φ)
deriving DecidableEq

section
variable {α κ φ : Type} [DecidableEq φ] (key : α → Option κ) (fp : α → φ) (order : α → ℕ)

/-- `row_number() OVER (PARTITION BY key IS NULL, fp ORDER BY ...)`, counted from zero. -/
def rowNumber (rows : List α) (row : α) : ℕ :=
  (rows.filter fun r => (key r).isNone = (key row).isNone && fp r = fp row).rank order row

/-- `coalesce('k' || key, 'c' || row_number || fp)`. -/
def rowMatch (rows : List α) (row : α) : RowMatch κ φ :=
  match key row with
  | some key => .key key
  | none => .content (rowNumber key fp order rows row) (fp row)

end

section
variable (timestamptz : String → Time) (now : Time) (kept : String → Option (Time × String))

/-- What `json_populate_record` and the defaults of `add_jobs` make of a spec. -/
def AddJobsJobSpec.columns (spec : AddJobsJobSpec) : JobColumns where
  runAt := (spec.runAt.map fun runAt => timestamptz (timestamp runAt)).getD now
  maxAttempts := spec.maxAttempts.getD 25
  priority := spec.priority.getD 0
  flags := (spec.flags.getD []).toFinset
  -- A JSON null becomes an SQL null.
  payload := if spec.payload = some "null" then "{}" else spec.payload.getD "{}"

/--
The row that `add_jobs` inserts or updates for a spec. Where it updates a pending job with
the same key, `kept` tells what run_at and payload that row is left with.
-/
def addedRow (spec : AddJobsJobSpec) (id : JobId) : JobRow where
  id := id
  identifier := spec.identifier
  queueName := spec.queueName
  key := spec.jobKey
  columns :=
    match spec.jobKey.bind kept with
    | none => spec.columns timestamptz now
    | some (runAt, payload) => { spec.columns timestamptz now with runAt, payload }

/-- `add_jobs` returns one row for each spec, in any order and under any ids. -/
def AddsJobs (specs : List AddJobsJobSpec) (rows : List JobRow) : Prop :=
  ∃ ids : List JobId, ids.length = specs.length ∧ ids.Nodup ∧
    rows.Perm (List.zipWith (addedRow timestamptz now kept) specs ids)

/-- `match` in `added`. -/
def JobRow.rowMatch (rows : List JobRow) (row : JobRow) : RowMatch String JobColumns :=
  BetterGraphileWorker.rowMatch JobRow.key JobRow.columns JobRow.id rows row

/-- `match` in `wanted`, of a spec and its ordinality. -/
def wantedMatch (specs : List AddJobsJobSpec) (item : AddJobsJobSpec × ℕ) :
    RowMatch String JobColumns :=
  rowMatch (fun item => item.1.jobKey) (fun item => item.1.columns timestamptz now) Prod.snd specs.zipIdx
    item

/-- The rows joined to a spec. -/
def joined (specs : List AddJobsJobSpec) (rows : List JobRow) (item : AddJobsJobSpec × ℕ) :
    List JobRow :=
  rows.filter fun row => row.rowMatch rows = wantedMatch timestamptz now specs item

/-- The result of the statement. -/
def addJobsSql (specs : List AddJobsJobSpec) (rows : List JobRow) : List JobRow :=
  specs.zipIdx.flatMap (joined timestamptz now specs rows)

end

/-! ## What assertDistinguishable accepts -/

/-- Two unkeyed specs of equal content have the same target. -/
def AddJobsJobSpec.Agrees (spec spec' : AddJobsJobSpec) : Prop :=
  spec.hasJobKey = false → spec'.hasJobKey = false → spec.content = spec'.content →
    spec.target = spec'.target

/-- What was seen before is a spec to agree with. -/
private def AgreesWith (seen : List (SpecContent × String × Option String)) (spec : AddJobsJobSpec) : Prop :=
  spec.hasJobKey = false → ∀ target, seen.lookup spec.content = some target → target = spec.target

private theorem agreesWith_iff {seen : List (SpecContent × String × Option String)}
    {spec : AddJobsJobSpec} (hkey : spec.hasJobKey = false) :
    AgreesWith seen spec ↔ (seen.lookup spec.content).getD spec.target = spec.target := by
  cases hseen : seen.lookup spec.content <;> simp [AgreesWith, hkey, hseen]

private theorem agreesWith_cons {seen : List (SpecContent × String × Option String)}
    {spec spec' : AddJobsJobSpec} (hkey : spec.hasJobKey = false) (hspec : AgreesWith seen spec) :
    AgreesWith ((spec.content, spec.target) :: seen) spec' ↔
      spec.Agrees spec' ∧ AgreesWith seen spec' := by
  by_cases hcontent : spec'.content = spec.content
  · constructor
    · intro h
      have hagrees : spec.Agrees spec' := by
        intro _ hkey' _
        exact h hkey' _ (by simp [hcontent])
      refine ⟨hagrees, fun hkey' target htarget => ?_⟩
      rw [← hagrees hkey hkey' hcontent.symm]
      exact hspec hkey target (hcontent ▸ htarget)
    · rintro ⟨hagrees, -⟩ hkey' target htarget
      rw [← hagrees hkey hkey' hcontent.symm]
      simpa [List.lookup_cons, hcontent] using htarget.symm
  · have hne : (spec'.content == spec.content) = false := beq_eq_false_iff_ne.mpr hcontent
    constructor
    · intro h
      refine ⟨fun _ _ hsame => absurd hsame.symm hcontent, fun hkey' target htarget => ?_⟩
      exact h hkey' target (by simpa [List.lookup_cons, hne] using htarget)
    · rintro ⟨-, h⟩ hkey' target htarget
      exact h hkey' target (by simpa [List.lookup_cons, hne] using htarget)

private theorem distinguishable_iff {seen : List (SpecContent × String × Option String)}
    {specs : List AddJobsJobSpec} : distinguishable seen specs = true ↔
      (∀ spec ∈ specs, AgreesWith seen spec) ∧ specs.Pairwise AddJobsJobSpec.Agrees := by
  induction specs generalizing seen with
  | nil => simp [distinguishable]
  | cons spec specs ih =>
    rw [List.forall_mem_cons, List.pairwise_cons]
    cases hkey : spec.hasJobKey with
    | true =>
      have hskip : AgreesWith seen spec := fun h => by simp [hkey] at h
      have hfree : ∀ spec' ∈ specs, spec.Agrees spec' := fun _ _ h => by simp [hkey] at h
      simp only [distinguishable, hkey, if_true, ih]
      tauto
    | false =>
      simp only [distinguishable, hkey, Bool.false_eq_true, if_false, ← agreesWith_iff hkey,
        Bool.if_false_right, Bool.and_eq_true, decide_eq_true_eq, ih]
      constructor
      · rintro ⟨hspec, hseen, hrest⟩
        refine ⟨⟨hspec, fun spec' h => ?_⟩, fun spec' h => ?_, hrest⟩
        · exact ((agreesWith_cons hkey hspec).mp (hseen spec' h)).2
        · exact ((agreesWith_cons hkey hspec).mp (hseen spec' h)).1
      · rintro ⟨⟨hspec, hseen⟩, hagrees, hrest⟩
        refine ⟨hspec, fun spec' h => ?_, hrest⟩
        exact (agreesWith_cons hkey hspec).mpr ⟨hagrees spec' h, hseen spec' h⟩

/-- Accepted are the lists whose unkeyed specs of equal content agree on task and lane. -/
theorem assertDistinguishable_iff {specs : List AddJobsJobSpec} :
    assertDistinguishable specs = true ↔ specs.Pairwise AddJobsJobSpec.Agrees := by
  simp [assertDistinguishable, distinguishable_iff, AgreesWith]

/-! ## Partitions -/

section

variable {timestamptz : String → Time} {now : Time} {kept : String → Option (Time × String)}
  {specs : List AddJobsJobSpec} {ids : List JobId} {rows : List JobRow} {columns : JobColumns}

/-- No two specs have the same key. -/
def DistinctKeys (specs : List AddJobsJobSpec) : Prop :=
  specs.Pairwise fun spec spec' => ∀ key, spec.jobKey = some key → spec'.jobKey ≠ some key

/-- The row is in the partition of these columns. -/
private def JobRow.has (columns : JobColumns) (row : JobRow) : Bool :=
  row.key.isNone && row.columns = columns

/-- The spec is in the partition of these columns. -/
private def AddJobsJobSpec.has (timestamptz : String → Time) (now : Time) (columns : JobColumns)
    (spec : AddJobsJobSpec) : Bool :=
  spec.jobKey.isNone && spec.columns timestamptz now = columns

private theorem has_addedRow {spec : AddJobsJobSpec} {id : JobId} :
    (addedRow timestamptz now kept spec id).has columns = spec.has timestamptz now columns := by
  cases hkey : spec.jobKey <;> simp [JobRow.has, AddJobsJobSpec.has, addedRow, hkey]

private theorem rowMatch_of_has {row : JobRow} (h : row.has columns = true) :
    row.rowMatch rows = .content ((rows.filter (JobRow.has columns)).rank JobRow.id row) columns := by
  simp only [JobRow.has, Bool.and_eq_true, Option.isNone_iff_eq_none, decide_eq_true_eq] at h
  obtain ⟨hkey, rfl⟩ := h
  have hpartition : (fun r : JobRow => decide (r.key.isNone = row.key.isNone) && decide (r.columns = row.columns)) =
      JobRow.has row.columns := by
    funext r
    cases hr : r.key <;> simp [JobRow.has, hkey, hr]
  simp only [JobRow.rowMatch, rowMatch, hkey, rowNumber]
  rw [← hpartition]
  simp [hkey]

private theorem wantedMatch_of_has {item : AddJobsJobSpec × ℕ}
    (h : item.1.has timestamptz now columns = true) : wantedMatch timestamptz now specs item =
      .content ((specs.zipIdx.filter fun item => item.1.has timestamptz now columns).rank Prod.snd item)
        columns := by
  simp only [AddJobsJobSpec.has, Bool.and_eq_true, Option.isNone_iff_eq_none, decide_eq_true_eq] at h
  obtain ⟨hkey, rfl⟩ := h
  have hpartition : (fun item' : AddJobsJobSpec × ℕ => decide (item'.1.jobKey.isNone = item.1.jobKey.isNone) &&
      decide (item'.1.columns timestamptz now = item.1.columns timestamptz now)) =
      fun item' => item'.1.has timestamptz now (item.1.columns timestamptz now) := by
    funext item'
    cases hitem : item'.1.jobKey <;> simp [AddJobsJobSpec.has, hkey, hitem]
  simp only [wantedMatch, rowMatch, hkey, rowNumber]
  rw [← hpartition]
  simp [hkey]

/-- A row of another partition, or with a key, has another match. -/
private theorem has_of_rowMatch {row : JobRow} {number : ℕ}
    (h : row.rowMatch rows = .content number columns) : row.has columns = true := by
  unfold JobRow.rowMatch rowMatch at h
  split at h
  · cases h
  · rename_i hkey
    simp only [RowMatch.content.injEq] at h
    simp [JobRow.has, hkey, h.2]

private theorem key_of_rowMatch {row : JobRow} {key : String} (h : row.rowMatch rows = .key key) :
    row.key = some key := by
  unfold JobRow.rowMatch rowMatch at h
  split at h
  · rename_i hkey
    rw [hkey, RowMatch.key.inj h]
  · cases h

/-- A partition has as many rows as specs. -/
private theorem length_partition (hlength : ids.length = specs.length) :
    ((List.zipWith (addedRow timestamptz now kept) specs ids).filter (JobRow.has columns)).length =
      (specs.zipIdx.filter fun item => item.1.has timestamptz now columns).length := by
  have hspecs : ∀ (specs : List AddJobsJobSpec) (start : ℕ),
      (((specs.zipIdx start)).filter fun item => item.1.has timestamptz now columns).length =
        (specs.filter (AddJobsJobSpec.has timestamptz now columns)).length := by
    intro specs
    induction specs with
    | nil => intro _; rfl
    | cons spec specs ih =>
      intro start
      simp only [List.zipIdx_cons, List.filter_cons]
      split <;> simp [ih]
  rw [hspecs]
  clear hspecs
  induction specs generalizing ids with
  | nil => simp
  | cons spec specs ih =>
    cases ids with
    | nil => simp at hlength
    | cons id ids =>
      simp only [List.zipWith_cons_cons, List.filter_cons, has_addedRow]
      split <;> simp [ih (by simpa using hlength)]

private theorem ids_of_zipWith (hlength : ids.length = specs.length) :
    (List.zipWith (addedRow timestamptz now kept) specs ids).map JobRow.id = ids := by
  induction specs generalizing ids with
  | nil => simpa [eq_comm] using hlength
  | cons spec specs ih =>
    cases ids with
    | nil => simp at hlength
    | cons id ids => simp [ih (by simpa using hlength), addedRow]

/-! ## One row for each spec -/

/-- What the statement knows of a row: its key, or the columns of its spec. -/
structure AnswersSpec (timestamptz : String → Time) (now : Time) (kept : String → Option (Time × String))
    (spec : AddJobsJobSpec) (row : JobRow) : Prop where
  key : row.key = spec.jobKey
  keyed : spec.jobKey ≠ none → row = addedRow timestamptz now kept spec row.id
  unkeyed : spec.jobKey = none → row.columns = spec.columns timestamptz now

private theorem filter_eq_singleton {α : Type} {l : List α} {p : α → Bool} {x : α} (hnodup : l.Nodup)
    (hx : x ∈ l) (hp : p x = true) (hunique : ∀ y ∈ l, p y = true → y = x) : l.filter p = [x] := by
  apply List.perm_singleton.mp
  rw [List.perm_ext_iff_of_nodup (hnodup.filter _) (List.nodup_singleton x)]
  intro y
  simp only [List.mem_filter, List.mem_singleton]
  constructor
  · rintro ⟨hy, hpy⟩
    exact hunique y hy hpy
  · rintro rfl
    exact ⟨hx, hp⟩

private theorem rowIds_nodup (hlength : ids.length = specs.length) (hids : ids.Nodup)
    (hperm : rows.Perm (List.zipWith (addedRow timestamptz now kept) specs ids)) :
    (rows.map JobRow.id).Nodup := by
  rw [(hperm.map JobRow.id).nodup_iff, ids_of_zipWith hlength]
  exact hids

private theorem joined_unkeyed (hrows : AddsJobs timestamptz now kept specs rows)
    {item : AddJobsJobSpec × ℕ} (hitem : item ∈ specs.zipIdx) (hkey : item.1.jobKey = none) :
    ∃ row ∈ rows, joined timestamptz now specs rows item = [row] ∧
      row.has (item.1.columns timestamptz now) = true := by
  obtain ⟨ids, hlength, hids, hperm⟩ := hrows
  have hrowIds := rowIds_nodup hlength hids hperm
  generalize hcolumns : item.1.columns timestamptz now = columns
  have hhas : item.1.has timestamptz now columns = true := by
    simp [AddJobsJobSpec.has, hkey, hcolumns]
  let items := specs.zipIdx.filter fun item => item.1.has timestamptz now columns
  have hitems : (rows.filter (JobRow.has columns)).length = items.length :=
    (hperm.filter _).length_eq.trans (length_partition hlength)
  have hrank : items.rank Prod.snd item < items.length :=
    List.rank_lt (List.mem_filter.mpr ⟨hitem, hhas⟩)
  have hpartIds : ((rows.filter (JobRow.has columns)).map JobRow.id).Nodup :=
    hrowIds.sublist (List.filter_sublist.map _)
  -- The number of the spec is the number of exactly one row.
  obtain ⟨row, hrow, hrowRank⟩ := List.exists_rank hpartIds (hitems ▸ hrank)
  obtain ⟨hmem, hrowHas⟩ := List.mem_filter.mp hrow
  have hwanted : wantedMatch timestamptz now specs item = .content (items.rank Prod.snd item) columns :=
    wantedMatch_of_has hhas
  refine ⟨row, hmem, ?_, hrowHas⟩
  apply filter_eq_singleton hrowIds.of_map hmem
  · rw [decide_eq_true_eq, rowMatch_of_has hrowHas, hwanted, hrowRank]
  · intro row' hmem' hmatch
    rw [decide_eq_true_eq, hwanted] at hmatch
    have hrowHas' := has_of_rowMatch hmatch
    rw [rowMatch_of_has hrowHas', RowMatch.content.injEq] at hmatch
    have hid : row'.id = row.id := List.key_eq_of_rank_eq (List.mem_filter.mpr ⟨hmem', hrowHas'⟩) hrow
      (hmatch.1.trans hrowRank.symm)
    exact List.inj_on_of_nodup_map hrowIds hmem' hmem hid

private theorem keys_of_zipWith (hlength : ids.length = specs.length) :
    (List.zipWith (addedRow timestamptz now kept) specs ids).map JobRow.key =
      specs.map AddJobsJobSpec.jobKey := by
  induction specs generalizing ids with
  | nil => simp
  | cons spec specs ih =>
    cases ids with
    | nil => simp at hlength
    | cons id ids => simp [ih (by simpa using hlength), addedRow]

/-- Distinct keys tell the rows apart. -/
private theorem row_of_key (hkeys : DistinctKeys specs) (hlength : ids.length = specs.length)
    {row row' : JobRow} {key : String}
    (hrow : row ∈ List.zipWith (addedRow timestamptz now kept) specs ids)
    (hrow' : row' ∈ List.zipWith (addedRow timestamptz now kept) specs ids)
    (hkey : row.key = some key) (hkey' : row'.key = some key) : row = row' := by
  let written := List.zipWith (addedRow timestamptz now kept) specs ids
  have hkeysWritten : written.map JobRow.key = specs.map AddJobsJobSpec.jobKey := keys_of_zipWith hlength
  have hmapped : (specs.map AddJobsJobSpec.jobKey).Pairwise fun k k' =>
      ∀ key, k = some key → k' ≠ some key := List.pairwise_map.mpr hkeys
  rw [← hkeysWritten, List.pairwise_map] at hmapped
  have hsame : written.Pairwise fun row row' =>
      ∀ key, row.key = some key → row'.key = some key → row = row' :=
    hmapped.imp fun h key hx hy => absurd hy (h key hx)
  have hflip : written.Pairwise (flip fun row row' =>
      ∀ key, row.key = some key → row'.key = some key → row = row') :=
    hsame.imp fun h key hx hy => (h key hy hx).symm
  exact hsame.forall_of_forall_of_flip (fun _ _ _ _ _ => rfl) hflip hrow hrow' key hkey hkey'

private theorem mem_zipWith (hlength : ids.length = specs.length) {spec : AddJobsJobSpec}
    (hspec : spec ∈ specs) :
    ∃ id, addedRow timestamptz now kept spec id ∈ List.zipWith (addedRow timestamptz now kept) specs ids := by
  induction specs generalizing ids with
  | nil => cases hspec
  | cons spec' specs ih =>
    cases ids with
    | nil => simp at hlength
    | cons id ids =>
      rcases List.mem_cons.mp hspec with rfl | hspec
      · exact ⟨id, List.mem_cons_self⟩
      · obtain ⟨id', hmem⟩ := ih (by simpa using hlength) hspec
        exact ⟨id', List.mem_cons_of_mem _ hmem⟩

private theorem joined_keyed (hkeys : DistinctKeys specs) (hrows : AddsJobs timestamptz now kept specs rows)
    {item : AddJobsJobSpec × ℕ} (hitem : item ∈ specs.zipIdx) {key : String}
    (hkey : item.1.jobKey = some key) :
    ∃ row ∈ rows, joined timestamptz now specs rows item = [row] ∧
      row = addedRow timestamptz now kept item.1 row.id := by
  obtain ⟨ids, hlength, hids, hperm⟩ := hrows
  have hrowIds := rowIds_nodup hlength hids hperm
  obtain ⟨id, hmem⟩ : ∃ id, addedRow timestamptz now kept item.1 id ∈
      List.zipWith (addedRow timestamptz now kept) specs ids :=
    mem_zipWith hlength (List.fst_mem_of_mem_zipIdx hitem)
  have hwanted : wantedMatch timestamptz now specs item = .key key := by
    simp [wantedMatch, rowMatch, hkey]
  refine ⟨_, hperm.mem_iff.mpr hmem, ?_, rfl⟩
  apply filter_eq_singleton hrowIds.of_map (hperm.mem_iff.mpr hmem)
  · rw [decide_eq_true_eq, hwanted]
    simp [JobRow.rowMatch, rowMatch, addedRow, hkey]
  · intro row hrow hmatch
    rw [decide_eq_true_eq, hwanted] at hmatch
    exact row_of_key hkeys hlength (hperm.mem_iff.mp hrow) hmem (key_of_rowMatch hmatch) hkey

theorem joined_answers (hkeys : DistinctKeys specs) (hrows : AddsJobs timestamptz now kept specs rows)
    {item : AddJobsJobSpec × ℕ} (hitem : item ∈ specs.zipIdx) :
    ∃ row ∈ rows, joined timestamptz now specs rows item = [row] ∧
      AnswersSpec timestamptz now kept item.1 row := by
  cases hkey : item.1.jobKey with
  | none =>
    obtain ⟨row, hmem, hjoined, hhas⟩ := joined_unkeyed hrows hitem hkey
    simp only [JobRow.has, Bool.and_eq_true, Option.isNone_iff_eq_none, decide_eq_true_eq] at hhas
    exact ⟨row, hmem, hjoined, hhas.1.trans hkey.symm, fun h => absurd hkey h, fun _ => hhas.2⟩
  | some key =>
    obtain ⟨row, hmem, hjoined, hrow⟩ := joined_keyed hkeys hrows hitem hkey
    exact ⟨row, hmem, hjoined, by rw [hrow]; rfl, fun _ => hrow, fun h => by simp [hkey] at h⟩

/-! ## The whole result -/

private theorem forall₂_flatMap {α β : Type} {f : α → List β} {P : α → β → Prop} {l : List α}
    (h : ∀ a ∈ l, ∃ b, f a = [b]) : List.Forall₂ P l (l.flatMap f) ↔ ∀ a ∈ l, ∀ b ∈ f a, P a b := by
  induction l with
  | nil => simp
  | cons a l ih =>
    obtain ⟨b, hb⟩ := h a List.mem_cons_self
    have ih := ih fun a' h' => h a' (List.mem_cons_of_mem _ h')
    simp [hb, ih]

/-- A statement about the specs and the rows in order is one about each join. -/
private theorem forall₂_addJobsSql {P : AddJobsJobSpec → JobRow → Prop} (hkeys : DistinctKeys specs)
    (hrows : AddsJobs timestamptz now kept specs rows) :
    List.Forall₂ P specs (addJobsSql timestamptz now specs rows) ↔
      ∀ item ∈ specs.zipIdx, ∀ row ∈ joined timestamptz now specs rows item, P item.1 row := by
  have hsingle : ∀ item ∈ specs.zipIdx, ∃ row, joined timestamptz now specs rows item = [row] := by
    intro item hitem
    obtain ⟨row, -, hjoined, -⟩ := joined_answers hkeys hrows hitem
    exact ⟨row, hjoined⟩
  have hall : List.Forall₂ (fun (item : AddJobsJobSpec × ℕ) row => P item.1 row) specs.zipIdx
      (addJobsSql timestamptz now specs rows) ↔ _ := forall₂_flatMap hsingle
  have hmap : List.Forall₂ P (specs.zipIdx.map Prod.fst) (addJobsSql timestamptz now specs rows) ↔ _ :=
    List.forall₂_map_left_iff
  rw [List.zipIdx_map_fst] at hmap
  exact hmap.trans hall

/-- The i-th row returned answers the i-th spec. -/
theorem addJobsSql_answers (hkeys : DistinctKeys specs) (hrows : AddsJobs timestamptz now kept specs rows) :
    List.Forall₂ (AnswersSpec timestamptz now kept) specs (addJobsSql timestamptz now specs rows) := by
  rw [forall₂_addJobsSql hkeys hrows]
  intro item hitem row hrow
  obtain ⟨row', -, hjoined, hanswers⟩ := joined_answers hkeys hrows hitem
  rw [hjoined, List.mem_singleton] at hrow
  exact hrow ▸ hanswers

private theorem zipIdx_pairwise_lt : specs.zipIdx.Pairwise fun item item' => item.2 < item'.2 := by
  have hords : (specs.zipIdx.map Prod.snd).Pairwise (· < ·) := by
    rw [List.zipIdx_map_snd]
    exact List.pairwise_lt_range'
  exact List.pairwise_map.mp hords

/-- No two specs want the same match. -/
private theorem wantedMatch_pairwise (hkeys : DistinctKeys specs) : specs.zipIdx.Pairwise
    fun item item' => wantedMatch timestamptz now specs item ≠ wantedMatch timestamptz now specs item' := by
  have hkeys' : specs.zipIdx.Pairwise fun item item' =>
      ∀ key, item.1.jobKey = some key → item'.1.jobKey ≠ some key := by
    rw [DistinctKeys, ← List.zipIdx_map_fst 0 specs, List.pairwise_map] at hkeys
    exact hkeys
  refine (zipIdx_pairwise_lt.and hkeys').imp_of_mem ?_
  intro item item' hitem hitem' ⟨hlt, hdistinct⟩ hmatch
  cases hkey : item.1.jobKey with
  | some key =>
    cases hkey' : item'.1.jobKey with
    | some key' =>
      simp only [wantedMatch, rowMatch, hkey, hkey', RowMatch.key.injEq] at hmatch
      exact hdistinct key hkey (hmatch ▸ hkey')
    | none => simp [wantedMatch, rowMatch, hkey, hkey'] at hmatch
  | none =>
    cases hkey' : item'.1.jobKey with
    | some key' => simp [wantedMatch, rowMatch, hkey, hkey'] at hmatch
    | none =>
      have hcolumns : item'.1.columns timestamptz now = item.1.columns timestamptz now := by
        simp only [wantedMatch, rowMatch, hkey, hkey', RowMatch.content.injEq] at hmatch
        exact hmatch.2.symm
      have hhas : item.1.has timestamptz now (item.1.columns timestamptz now) = true := by
        simp [AddJobsJobSpec.has, hkey]
      have hhas' : item'.1.has timestamptz now (item.1.columns timestamptz now) = true := by
        simp [AddJobsJobSpec.has, hkey', hcolumns]
      rw [wantedMatch_of_has hhas, wantedMatch_of_has hhas', RowMatch.content.injEq] at hmatch
      -- Items of one partition with the same number have the same ordinality.
      have hord : item.2 = item'.2 := List.key_eq_of_rank_eq (List.mem_filter.mpr ⟨hitem, hhas⟩)
        (List.mem_filter.mpr ⟨hitem', hhas'⟩) hmatch.1
      omega

/-- Every row is returned exactly once. -/
theorem addJobsSql_perm (hkeys : DistinctKeys specs) (hrows : AddsJobs timestamptz now kept specs rows) :
    (addJobsSql timestamptz now specs rows).Perm rows := by
  have hlength := (addJobsSql_answers hkeys hrows).length_eq
  obtain ⟨ids, hids, hnodupIds, hperm⟩ := hrows
  have hrowIds : rows.Nodup := (rowIds_nodup hids hnodupIds hperm).of_map
  have hdistinct : specs.zipIdx.Pairwise fun item item' =>
      wantedMatch timestamptz now specs item ≠ wantedMatch timestamptz now specs item' :=
    wantedMatch_pairwise hkeys
  have hnodup : (addJobsSql timestamptz now specs rows).Nodup := by
    apply List.nodup_flatMap.mpr
    refine ⟨fun item _ => hrowIds.filter _, hdistinct.imp ?_⟩
    intro item item' hne
    apply List.disjoint_left.mpr
    intro row hrow hrow'
    simp only [joined, List.mem_filter, decide_eq_true_eq] at hrow hrow'
    exact hne (hrow.2.symm.trans hrow'.2)
  have hsubset : addJobsSql timestamptz now specs rows ⊆ rows := by
    intro row hrow
    simp only [addJobsSql, joined, List.mem_flatMap, List.mem_filter] at hrow
    obtain ⟨-, -, hrow, -⟩ := hrow
    exact hrow
  apply (List.subperm_of_subset hnodup hsubset).perm_of_length_le
  rw [← hlength, hperm.length_eq, List.length_zipWith, hids, Nat.min_self]

/-! ## In spec order -/

/-- Every row is returned once, the i-th one being the one added for the i-th spec. -/
def InOrder (timestamptz : String → Time) (now : Time) (kept : String → Option (Time × String))
    (specs : List AddJobsJobSpec) (rows : List JobRow) : Prop :=
  (addJobsSql timestamptz now specs rows).Perm rows ∧
  List.Forall₂ (fun spec row => row = addedRow timestamptz now kept spec row.id) specs
    (addJobsSql timestamptz now specs rows)

theorem InOrder.identifiers (h : InOrder timestamptz now kept specs rows) :
    (addJobsSql timestamptz now specs rows).map JobRow.identifier =
      specs.map AddJobsJobSpec.identifier := by
  apply Eq.symm
  rw [← List.forall₂_eq_eq_eq, List.forall₂_map_left_iff, List.forall₂_map_right_iff]
  apply h.2.imp
  intro spec row hrow
  rw [hrow]
  rfl

/-- Unkeyed specs with the same columns have the same task and lane. -/
def ColumnsAgree (timestamptz : String → Time) (now : Time) (specs : List AddJobsJobSpec) : Prop :=
  ∀ spec ∈ specs, ∀ spec' ∈ specs, spec.jobKey = none → spec'.jobKey = none →
    spec.columns timestamptz now = spec'.columns timestamptz now → spec.target = spec'.target

private theorem addedRow_congr {spec spec' : AddJobsJobSpec} {id : JobId} (hkey : spec.jobKey = none)
    (hkey' : spec'.jobKey = none)
    (hcolumns : spec.columns timestamptz now = spec'.columns timestamptz now)
    (htarget : spec.target = spec'.target) :
    addedRow timestamptz now kept spec id = addedRow timestamptz now kept spec' id := by
  simp only [AddJobsJobSpec.target, Prod.mk.injEq] at htarget
  simp [addedRow, hkey, hkey', hcolumns, htarget.1, htarget.2]

theorem inOrder_of_columnsAgree (hagree : ColumnsAgree timestamptz now specs)
    (hkeys : DistinctKeys specs) (hrows : AddsJobs timestamptz now kept specs rows) :
    InOrder timestamptz now kept specs rows := by
  refine ⟨addJobsSql_perm hkeys hrows, ?_⟩
  rw [forall₂_addJobsSql hkeys hrows]
  intro item hitem row hrow
  obtain ⟨row', hmem, hjoined, hanswers⟩ := joined_answers hkeys hrows hitem
  obtain rfl : row = row' := by simpa [hjoined] using hrow
  cases hkey : item.1.jobKey with
  | some key => exact hanswers.keyed (by simp [hkey])
  | none =>
    -- The row was added for a spec with the same columns.
    obtain ⟨ids, -, -, hperm⟩ := hrows
    have hwritten := hperm.mem_iff.mp hmem
    rw [← List.map_uncurry_zip_eq_zipWith, List.mem_map] at hwritten
    obtain ⟨⟨spec, id⟩, hzip, rfl⟩ := hwritten
    have hspecKey : spec.jobKey = none := hanswers.key.trans hkey
    have hcolumns : spec.columns timestamptz now = item.1.columns timestamptz now := by
      rw [← hanswers.unkeyed hkey]
      simp [addedRow, hspecKey]
    have htarget := hagree spec (List.of_mem_zip hzip).1 item.1 (List.fst_mem_of_mem_zipIdx hitem)
      hspecKey hkey hcolumns
    exact addedRow_congr hspecKey hkey hcolumns htarget

/-! ## Exchanged ids -/

/-- The rows in the order of the specs, with the ids of two of them exchanged. -/
private def exchanged (timestamptz : String → Time) (now : Time) (kept : String → Option (Time × String))
    (specs : List AddJobsJobSpec) (i j : ℕ) : List JobRow :=
  specs.zipIdx.map fun item => addedRow timestamptz now kept item.1 (Equiv.swap i j item.2)

private theorem exchanged_added {i j : ℕ} :
    AddsJobs timestamptz now kept specs (exchanged timestamptz now kept specs i j) := by
  refine ⟨(List.range specs.length).map (Equiv.swap i j), by simp, ?_, ?_⟩
  · exact List.nodup_range.map (Equiv.swap i j).injective
  · apply List.Perm.of_eq
    rw [exchanged, List.zipIdx_eq_zip_range', ← List.range_eq_range', List.zipWith_map_right,
      ← List.map_uncurry_zip_eq_zipWith]
    rfl

/-- In the place of the first item stands the row of the second. -/
private theorem joined_exchanged {item item' : AddJobsJobSpec × ℕ} (hitem' : item' ∈ specs.zipIdx)
    (hlt : item.2 < item'.2) (hkey : item.1.jobKey = none) (hkey' : item'.1.jobKey = none)
    (hcolumns : item'.1.columns timestamptz now = item.1.columns timestamptz now) :
    addedRow timestamptz now kept item'.1 item.2 ∈
      joined timestamptz now specs (exchanged timestamptz now kept specs item.2 item'.2) item := by
  have hhas : item.1.has timestamptz now (item.1.columns timestamptz now) = true := by
    simp [AddJobsJobSpec.has, hkey]
  have hrowHas : (addedRow timestamptz now kept item'.1 item.2).has (item.1.columns timestamptz now) = true := by
    rw [has_addedRow]
    simp [AddJobsJobSpec.has, hkey', hcolumns]
  have hbelow : ∀ ord, decide (Equiv.swap item.2 item'.2 ord < item.2) = decide (ord < item.2) := by
    intro ord
    rcases eq_or_ne ord item.2 with rfl | hord
    · simp [hlt.le]
    · rcases eq_or_ne ord item'.2 with rfl | hord'
      · simp [hlt.le]
      · rw [Equiv.swap_apply_of_ne_of_ne hord hord']
  simp only [joined, List.mem_filter, decide_eq_true_eq]
  constructor
  · exact List.mem_map.mpr ⟨item', hitem', by simp⟩
  · rw [rowMatch_of_has hrowHas, wantedMatch_of_has hhas, RowMatch.content.injEq]
    refine ⟨?_, rfl⟩
    simp only [List.rank, exchanged, List.filter_map, List.length_map, List.filter_filter]
    congr 1
    apply List.filter_congr
    intro item'' _
    simp only [Function.comp_apply, has_addedRow]
    rw [← hbelow item''.2]
    rfl

theorem columnsAgree_of_inOrder (hkeys : DistinctKeys specs)
    (h : ∀ rows, AddsJobs timestamptz now kept specs rows → InOrder timestamptz now kept specs rows) :
    ColumnsAgree timestamptz now specs := by
  have hordered : ∀ item ∈ specs.zipIdx, ∀ item' ∈ specs.zipIdx, item.2 < item'.2 →
      item.1.jobKey = none → item'.1.jobKey = none →
      item'.1.columns timestamptz now = item.1.columns timestamptz now →
      item.1.target = item'.1.target := by
    intro item hitem item' hitem' hlt hkey hkey' hcolumns
    obtain ⟨-, hanswers⟩ := h _ (exchanged_added (i := item.2) (j := item'.2))
    have hrow := (forall₂_addJobsSql hkeys exchanged_added).mp hanswers item hitem _
      (joined_exchanged hitem' hlt hkey hkey' hcolumns)
    have hidentifier := congrArg JobRow.identifier hrow
    have hlane := congrArg JobRow.queueName hrow
    exact Prod.ext hidentifier.symm hlane.symm
  intro spec hspec spec' hspec' hkey hkey' hcolumns
  obtain ⟨i, hi⟩ := List.getElem?_of_mem hspec
  obtain ⟨j, hj⟩ := List.getElem?_of_mem hspec'
  have hitem : (spec, i) ∈ specs.zipIdx := List.mem_zipIdx_iff_getElem?.mpr hi
  have hitem' : (spec', j) ∈ specs.zipIdx := List.mem_zipIdx_iff_getElem?.mpr hj
  rcases Nat.lt_trichotomy i j with hlt | rfl | hlt
  · exact hordered _ hitem _ hitem' hlt hkey hkey' hcolumns.symm
  · rw [hi, Option.some.injEq] at hj
    rw [hj]
  · exact (hordered _ hitem' _ hitem hlt hkey' hkey hcolumns).symm

/-- An accepted list whose equal columns are written alike has nothing to confuse. -/
theorem columnsAgree_of_accepted (haccept : assertDistinguishable specs = true)
    (hwritten : ∀ spec ∈ specs, ∀ spec' ∈ specs, spec.jobKey = none → spec'.jobKey = none →
      spec.columns timestamptz now = spec'.columns timestamptz now → spec.content = spec'.content) :
    ColumnsAgree timestamptz now specs := by
  have hagrees := assertDistinguishable_iff.mp haccept
  have hflip : specs.Pairwise (flip AddJobsJobSpec.Agrees) :=
    hagrees.imp fun h hkey' hkey hcontent => (h hkey hkey' hcontent.symm).symm
  have hrefl : ∀ spec ∈ specs, spec.Agrees spec := fun _ _ _ _ _ => rfl
  intro spec hspec spec' hspec' hkey hkey' hcolumns
  apply hagrees.forall_of_forall_of_flip hrefl hflip hspec hspec'
  · simp [AddJobsJobSpec.hasJobKey, hkey]
  · simp [AddJobsJobSpec.hasJobKey, hkey']
  · exact hwritten spec hspec spec' hspec' hkey hkey' hcolumns

/--
With distinct keys, the rows come back in spec order under every order and ids that
`add_jobs` may choose if and only if unkeyed specs with the same columns agree on task and
lane. In any case every row is returned once, and answers its spec in all but these two.
-/
theorem addJobs_order_iff (hkeys : DistinctKeys specs) :
    ((∀ rows, AddsJobs timestamptz now kept specs rows → InOrder timestamptz now kept specs rows) ↔
      ColumnsAgree timestamptz now specs) ∧
    (∀ rows, AddsJobs timestamptz now kept specs rows →
      (addJobsSql timestamptz now specs rows).Perm rows ∧
      List.Forall₂ (AnswersSpec timestamptz now kept) specs (addJobsSql timestamptz now specs rows)) ∧
    (assertDistinguishable specs = true →
      (∀ spec ∈ specs, ∀ spec' ∈ specs, spec.jobKey = none → spec'.jobKey = none →
        spec.columns timestamptz now = spec'.columns timestamptz now → spec.content = spec'.content) →
      ColumnsAgree timestamptz now specs) := by
  refine ⟨⟨columnsAgree_of_inOrder hkeys, ?_⟩, ?_, columnsAgree_of_accepted⟩
  · intro hagree rows hrows
    exact inOrder_of_columnsAgree hagree hkeys hrows
  · intro rows hrows
    exact ⟨addJobsSql_perm hkeys hrows, addJobsSql_answers hkeys hrows⟩

end

namespace AddJobsTrace

/-- A spec of a task, with the default for `max_attempts` written out or left out. -/
def spec (identifier : String) (maxAttempts : Option ℤ) : AddJobsJobSpec :=
  ⟨identifier, some "{}", none, none, maxAttempts, none, none, none⟩

def alike : List AddJobsJobSpec := [spec "a" none, spec "a" (some 25)]

def confused : List AddJobsJobSpec := [spec "a" none, spec "b" (some 25)]

/-- The second spec is inserted first. -/
def rows : List JobRow :=
  [addedRow (fun _ => 0) 0 (fun _ => none) (spec "a" none) 2,
    addedRow (fun _ => 0) 0 (fun _ => none) (spec "b" (some 25)) 1]

end AddJobsTrace

theorem addJobs_order_iff_alike : DistinctKeys AddJobsTrace.alike ∧ ∀ rows,
    AddsJobs (fun _ => 0) 0 (fun _ => none) AddJobsTrace.alike rows →
    InOrder (fun _ => 0) 0 (fun _ => none) AddJobsTrace.alike rows := by
  have hkeys : DistinctKeys AddJobsTrace.alike := by
    simp [DistinctKeys, AddJobsTrace.alike, AddJobsTrace.spec]
  have hiff : (∀ rows, AddsJobs (fun _ => 0) 0 (fun _ => none) AddJobsTrace.alike rows →
      InOrder (fun _ => 0) 0 (fun _ => none) AddJobsTrace.alike rows) ↔ _ := (addJobs_order_iff hkeys).1
  refine ⟨hkeys, hiff.mpr ?_⟩
  simp [ColumnsAgree, AddJobsTrace.alike, AddJobsTrace.spec, AddJobsJobSpec.target]

/-- Two tasks exchange their ids: `max_attempts` is 25 in both rows, and written once only. -/
theorem ids_exchanged : assertDistinguishable AddJobsTrace.confused = true ∧
    DistinctKeys AddJobsTrace.confused ∧
    AddsJobs (fun _ => 0) 0 (fun _ => none) AddJobsTrace.confused AddJobsTrace.rows ∧
    (addJobsSql (fun _ => 0) 0 AddJobsTrace.confused AddJobsTrace.rows).map JobRow.identifier = ["b", "a"] ∧
    ¬InOrder (fun _ => 0) 0 (fun _ => none) AddJobsTrace.confused AddJobsTrace.rows := by
  have hreturned : (addJobsSql (fun _ => 0) 0 AddJobsTrace.confused AddJobsTrace.rows).map JobRow.identifier =
      ["b", "a"] := by decide
  refine ⟨by decide, ?_, ⟨[2, 1], rfl, by decide, .refl _⟩, hreturned, ?_⟩
  · simp [DistinctKeys, AddJobsTrace.confused, AddJobsTrace.spec]
  · intro horder
    have hidentifiers := hreturned.symm.trans horder.identifiers
    simp [AddJobsTrace.confused, AddJobsTrace.spec] at hidentifiers

end BetterGraphileWorker
