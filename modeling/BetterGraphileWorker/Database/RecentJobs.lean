-- SUMMARY: `queryRecentJobs`, and what a client lists that follows its cursors while the jobs table changes between the pages.
import Mathlib.Data.Prod.Lex
import BetterGraphileWorker.Library.Keyset
import BetterGraphileWorker.Library.Runs
import BetterGraphileWorker.Data.IsoText
import BetterGraphileWorker.Data.Payload
import BetterGraphileWorker.Worker.Durations

/-!
# Pages of jobs

A cursor names the last job of a page by the text of its `created_at` and its id. The
client reads page after page until one is empty; anyone writes the table in between.
What `Date.parse` and `timestamptz` read beyond ISO 8601 texts is left open.
-/

namespace BetterGraphileWorker.RecentJobs

/-! ## Timestamps -/

/-- A `timestamptz` value, in microseconds. -/
inductive Timestamp where
  | negInfinity
  | finite (micros : ℤ)
  | infinity
deriving DecidableEq

def Timestamp.rank : Timestamp → ℤ ×ₗ ℤ
  | .negInfinity => toLex (-1, 0)
  | .finite micros => toLex (0, micros)
  | .infinity => toLex (1, 0)

theorem Timestamp.rank_injective : Function.Injective rank := by
  intro t t' h
  cases t <;> cases t' <;> simp_all [rank]

instance : LinearOrder Timestamp := LinearOrder.lift' Timestamp.rank Timestamp.rank_injective

/-- `to_char` of a `created_at`: null for the infinities. -/
def Timestamp.toChar : Timestamp → Option String
  | .finite micros => some (BetterGraphileWorker.toChar micros)
  | .negInfinity | .infinity => none

inductive ListError where
  | rangeError (message : String)
  | typeError
  | nonRetriable (message : String)
  /-- PostgreSQL rejects a parameter. -/
  | database
deriving DecidableEq

/-- `toISOString()` of a column: a Date of its milliseconds, and a number for an infinity. -/
def Timestamp.toISOString : Timestamp → Except ListError String
  | .finite micros =>
    if (micros / 1000).natAbs ≤ 8640000000000000 then
      .ok (BetterGraphileWorker.toISOString (micros / 1000))
    else .error (.rangeError "Invalid time value")
  | .negInfinity | .infinity => .error .typeError

/-! ## The table -/

structure JobRow where
  id : ℤ
  taskIdentifier : String
  payload : Json
  priority : ℤ
  attempts : ℤ
  maxAttempts : ℤ
  runAt : Timestamp
  createdAt : Timestamp
  lockedAt : Option Timestamp
  lockedBy : Option String
  lastError : Option String

/-- What `ORDER BY` compares. -/
abbrev Position := Timestamp ×ₗ ℤ

def JobRow.position (row : JobRow) : Position := toLex (row.createdAt, row.id)

/-- The content of the table: `id` is its primary key, a `bigint`. -/
structure Jobs where
  rows : List JobRow
  nodup : (rows.map JobRow.id).Nodup
  bigint : ∀ row ∈ rows, row.id ≤ 9223372036854775807

/-! ## Cursors -/

structure Cursor where
  createdAt : Option String
  id : String
deriving DecidableEq

/-- The parsers of JavaScript and PostgreSQL: both read ISO 8601 texts. -/
structure Host where
  /-- `Date.parse`; `none` is `NaN`. -/
  dateParse : String → Option ℤ
  timestamptz : String → Option Timestamp
  dateParse_iso : ∀ text micros, readIso text = some micros → (dateParse text).isSome = true
  timestamptz_iso : ∀ text micros, readIso text = some micros →
    timestamptz text = some (.finite micros)

/-- `/^[1-9][0-9]*$/.test(id)`. -/
def isJobId (id : String) : Bool :=
  match id.toList with
  | c :: cs => c.isDigit && c != '0' && cs.all Char.isDigit
  | [] => false

/-- `$6::bigint` of such a text. -/
def bigint (id : String) : Option ℤ :=
  let n := Nat.ofDigitChars 10 id.toList 0
  if n ≤ 9223372036854775807 then some n else none

def Host.validCursor (host : Host) (cursor : Cursor) : Bool :=
  (cursor.createdAt.bind host.dateParse).isSome && isJobId cursor.id

/-- `($5::timestamptz, $6::bigint)`. -/
def Host.position (host : Host) (cursor : Cursor) : Option Position := do
  let createdAt ← cursor.createdAt.bind host.timestamptz
  let id ← bigint cursor.id
  some (toLex (createdAt, id))

/-! ## `queryRecentJobs` -/

structure ListJobsOptions where
  limit : Option ℤ
  offset : Option ℤ
  queue : Option String
  state : Option String
  includePayload : Option Bool
  before : Option Cursor

structure ListedJob where
  id : String
  cursor : Cursor
  queueName : String
  /-- `none` is `undefined`. -/
  payload : Option Json
  priority : ℤ
  attempts : ℤ
  maxAttempts : ℤ
  runAt : String
  createdAt : String
  lockedAt : Option String
  lockedBy : Option String
  lastError : Option String

def assertInteger (value : ℤ) (label : String) (min max : ℤ) : Except ListError Unit :=
  if value < min ∨ max < value then
    .error (.rangeError s!"{label} must be an integer between {min} and {max}")
  else .ok ()

/-- The check of `validation.ts`, on integers. -/
theorem assertInteger_eq {value : ℤ} {label : String} {min max : ℤ} (hmin : -9007199254740991 ≤ min)
    (hmax : max ≤ 9007199254740991) : assertInteger value label min max =
      ((Durations.assertInteger (.finite value) label min max).mapError .rangeError).map fun _ => () := by
  unfold assertInteger Durations.assertInteger
  by_cases hsafe : value.natAbs ≤ 9007199254740991
  · have hvalue : Durations.safeInteger? (.finite value) = some value := by
      simp [Durations.safeInteger?, hsafe]
    by_cases hrange : value < min ∨ max < value
    · have hnot : ¬(min ≤ value ∧ value ≤ max) := by omega
      simp [hvalue, hrange, hnot, Except.map, Except.mapError]
    · have hin : min ≤ value ∧ value ≤ max := by omega
      simp [hvalue, hrange, hin, Except.map, Except.mapError]
  · have hvalue : Durations.safeInteger? (.finite value) = none := by
      simp [Durations.safeInteger?, hsafe]
    have hrange : value < min ∨ max < value := by omega
    simp [hvalue, hrange, Except.map, Except.mapError]

/-- The filter of the query. -/
def JobRow.matches (row : JobRow) (queue state : Option String) : Bool :=
  queue.all (row.taskIdentifier = ·) && state.all fun state =>
    (state = "pending" && row.lockedAt.isNone && row.attempts < row.maxAttempts) ||
      (state = "running" && row.lockedAt.isSome) ||
      (state = "failed" && row.lockedAt.isNone && row.maxAttempts ≤ row.attempts)

/-- The rows of the query. -/
def Jobs.select (jobs : Jobs) (queue state : Option String) (before : Option Position)
    (limit offset : ℕ) : List JobRow :=
  let rows := jobs.rows.filter fun row =>
    row.matches queue state && before.all (row.position < ·)
  ((rows.insertionSort fun row row' => row'.position ≤ row.position).drop offset).take limit

def JobRow.cursor (row : JobRow) : Cursor :=
  ⟨row.createdAt.toChar, toString row.id⟩

def extractProducerLink (payload : Json) : Except ListError (Option Json) :=
  if Payload.isPayloadEnvelope payload then .ok (Payload.cleanPayload payload)
  else .error (.nonRetriable "Unsupported job payload: expected a version-2 envelope. Drain old jobs before upgrading and enqueue through the worker/client APIs.")

def JobRow.listed (row : JobRow) (includePayload : Bool) : Except ListError ListedJob := do
  let payload ← (if includePayload then extractProducerLink row.payload else .ok (some .null))
  let runAt ← row.runAt.toISOString
  let createdAt ← row.createdAt.toISOString
  let lockedAt ← row.lockedAt.mapM Timestamp.toISOString
  .ok
    { id := toString row.id
      cursor := row.cursor
      queueName := row.taskIdentifier
      payload
      priority := row.priority
      attempts := row.attempts
      maxAttempts := row.maxAttempts
      runAt
      createdAt
      lockedAt
      lockedBy := row.lockedBy
      lastError := row.lastError }

/-- `options.before` as the query receives it. -/
def Host.readBefore (host : Host) : Option Cursor → Except ListError (Option Position)
  | none => .ok none
  | some cursor =>
    if host.validCursor cursor then
      match host.position cursor with
      | some position => .ok (some position)
      | none => .error .database
    else .error (.rangeError "Invalid job cursor")

def queryRecentJobs (host : Host) (jobs : Jobs) (options : ListJobsOptions) :
    Except ListError (List ListedJob) := do
  let limit := options.limit.getD 100
  let offset := options.offset.getD 0
  assertInteger limit "limit" 0 1000
  assertInteger offset "offset" 0 9007199254740991
  if options.state.any (· ∉ ["pending", "running", "failed"]) then
    throw (.rangeError "Invalid job state")
  if options.before.isSome && options.offset.isSome then
    throw (.rangeError "before and offset cannot be combined")
  let before ← host.readBefore options.before
  let rows := jobs.select options.queue options.state before limit.toNat offset.toNat
  rows.mapM (·.listed (options.includePayload.getD false))

/-! ## Following the cursors -/

inductive JobListState where
  | pending
  | running
  | failed

def JobListState.text : JobListState → String
  | .pending => "pending"
  | .running => "running"
  | .failed => "failed"

/-- The page size and the filter of an iteration. -/
structure Listing where
  limit : ℕ
  limit_pos : 0 < limit
  limit_le : limit ≤ 1000
  queue : Option String
  state : Option JobListState
  includePayload : Bool

def Listing.options (listing : Listing) (before : Option Cursor) : ListJobsOptions where
  limit := some listing.limit
  offset := none
  queue := listing.queue
  state := listing.state.map JobListState.text
  includePayload := some listing.includePayload
  before := before

def Listing.matches (listing : Listing) (row : JobRow) : Bool :=
  row.matches listing.queue (listing.state.map JobListState.text)

inductive Phase where
  | listing
  /-- A page was empty. -/
  | done
  | failed (error : ListError)
deriving DecidableEq

structure State where
  jobs : Jobs
  pages : List (List ListedJob)
  before : Option Cursor
  phase : Phase

inductive Event where
  /-- Jobs are inserted, deleted and updated. -/
  | write (jobs : Jobs)
  | page

def State.exec (s : State) (host : Host) (listing : Listing) : Event → Option State
  | .write jobs => some { s with jobs := jobs }
  | .page =>
    if s.phase = .listing then
      match queryRecentJobs host s.jobs (listing.options s.before) with
      | .error e => some { s with phase := .failed e }
      | .ok page =>
        match page.getLast? with
        | some last => some { s with pages := s.pages ++ [page], before := some last.cursor }
        | none => some { s with phase := .done }
    else none

def note (s : State) (e : Event) (_ : State) (tables : List Jobs) : List Jobs :=
  match e with
  | .write _ => s.jobs :: tables
  | .page => tables

/-- The iteration, with the contents that the table had before. -/
def system (host : Host) (listing : Listing) : TransitionSystem (State × List Jobs) Event :=
  TransitionSystem.observe
    { Init := fun s => s.pages = [] ∧ s.before = none ∧ s.phase = .listing
      step := fun s e => s.exec host listing e } [] note

/-- All contents of the table since the iteration began. -/
def contents (p : State × List Jobs) : List Jobs := p.1.jobs :: p.2

/-- The rows that the pages show. -/
structure Shows (host : Host) (listing : Listing) (p : State × List Jobs) (rows : List JobRow) :
    Prop where
  returned : List.Forall₂ (fun row job => row.listed listing.includePayload = .ok job)
    rows p.1.pages.flatten
  matching : ∀ row ∈ rows, listing.matches row = true ∧ ∃ jobs ∈ contents p, row ∈ jobs.rows
  descending : rows.Pairwise fun row row' => row'.position < row.position
  once : (rows.map JobRow.id).Nodup
  accepted : ∀ job ∈ p.1.pages.flatten, host.validCursor job.cursor = true ∧
    (host.position job.cursor).isSome = true
  /-- A job that is there and matches all the time is shown. -/
  complete : p.1.phase = .done → ∀ id,
    (∀ jobs ∈ contents p, ∃ row ∈ jobs.rows, row.id = id ∧ listing.matches row = true) →
    id ∈ rows.map JobRow.id

/-- Nothing is missed or repeated, and no call throws. -/
def Complete (host : Host) (listing : Listing) (p : State × List Jobs) : Prop :=
  (∀ e, p.1.phase ≠ .failed e) ∧ ∃ rows, Shows host listing p rows

/-! ## Rows that can be listed -/

def Timestamp.isDate : Timestamp → Bool
  | .finite micros => (micros / 1000).natAbs ≤ 8640000000000000
  | .negInfinity | .infinity => false

/-- The year is one of 1 to 9999. -/
def Timestamp.inYears : Timestamp → Bool
  | .finite micros => InYears micros
  | .negInfinity | .infinity => false

def JobRow.Listable (row : JobRow) (includePayload : Bool) : Prop :=
  1 ≤ row.id ∧ row.createdAt.inYears = true ∧ row.runAt.isDate = true ∧
    row.lockedAt.all Timestamp.isDate = true ∧
    (includePayload = true → Payload.isPayloadEnvelope row.payload = true)

instance (row : JobRow) (includePayload : Bool) : Decidable (row.Listable includePayload) :=
  inferInstanceAs (Decidable (_ ∧ _))

/--
The rows below the cursor that match can be listed, and no row is written whose job had
another `created_at` before.
-/
def Steady (host : Host) (listing : Listing) (p : State × List Jobs) : Event → Prop
  | .page => ∀ row ∈ p.1.jobs.rows, listing.matches row = true →
      Keyset.Below (p.1.before.bind host.position) row.position →
      row.Listable listing.includePayload
  | .write jobs => ∀ row ∈ jobs.rows, ∀ jobs' ∈ contents p, ∀ row' ∈ jobs'.rows,
      row.id = row'.id → row.createdAt = row'.createdAt

section
variable {host : Host} {listing : Listing} {row : JobRow} {t : Timestamp}

theorem Timestamp.toISOString_of_isDate (h : t.isDate = true) : ∃ text, t.toISOString = .ok text := by
  cases t with
  | finite micros => exact ⟨_, if_pos (of_decide_eq_true h)⟩
  | negInfinity => cases h
  | infinity => cases h

theorem Timestamp.isDate_of_inYears (h : t.inYears = true) : t.isDate = true := by
  cases t with
  | finite micros =>
    have hyears : InYears micros := of_decide_eq_true h
    exact decide_eq_true hyears.natAbs_le
  | negInfinity => cases h
  | infinity => cases h

/-- A row that can be listed is. -/
theorem JobRow.Listable.exists_listed {includePayload : Bool} (h : row.Listable includePayload) :
    ∃ job, row.listed includePayload = .ok job ∧ job.cursor = row.cursor := by
  obtain ⟨-, hcreated, hrun, hlocked, hpayload⟩ := h
  obtain ⟨runAt, hrunAt⟩ := Timestamp.toISOString_of_isDate hrun
  obtain ⟨createdAt, hcreatedAt⟩ :=
    Timestamp.toISOString_of_isDate (Timestamp.isDate_of_inYears hcreated)
  have hlockedAt : ∃ lockedAt, row.lockedAt.mapM Timestamp.toISOString = .ok lockedAt := by
    cases hlock : row.lockedAt with
    | none => exact ⟨none, rfl⟩
    | some t =>
      rw [hlock] at hlocked
      obtain ⟨text, htext⟩ := Timestamp.toISOString_of_isDate hlocked
      exact ⟨some text, by simp [htext]⟩
  obtain ⟨lockedAt, hlockedAt⟩ := hlockedAt
  have hrow : ∃ payload, (if includePayload then extractProducerLink row.payload
      else .ok (some .null)) = .ok payload := by
    cases includePayload with
    | true => exact ⟨_, if_pos (hpayload rfl)⟩
    | false => exact ⟨_, rfl⟩
  obtain ⟨payload, hrow⟩ := hrow
  unfold JobRow.listed
  rw [hrow, hrunAt, hcreatedAt, hlockedAt]
  exact ⟨_, rfl, rfl⟩

/-! ## Cursors of rows -/

private theorem head_toDigits {n : ℕ} (h : 0 < n) : ∃ c cs, Nat.toDigits 10 n = c :: cs ∧ c ≠ '0' := by
  induction n using Nat.strongRecOn with
  | ind n ih =>
    cases Nat.lt_or_ge n 10 with
    | inl hlt =>
      refine ⟨n.digitChar, [], Nat.toDigits_of_lt_base hlt, ?_⟩
      intro heq
      have := Nat.toNat_digitChar_sub_48_of_lt_ten hlt
      rw [heq] at this
      exact absurd this.symm h.ne'
    | inr hge =>
      obtain ⟨c, cs, hdigits, hne⟩ := ih (n / 10) (by omega) (by omega)
      rw [Nat.toDigits_of_base_le (by decide) hge, hdigits]
      exact ⟨c, cs ++ [(n % 10).digitChar], rfl, hne⟩

/-- The id of a job is read back. -/
theorem isJobId_toString {id : ℤ} (h : 1 ≤ id) (hle : id ≤ 9223372036854775807) :
    isJobId (toString id) = true ∧ bigint (toString id) = some id := by
  obtain ⟨n, rfl⟩ := Int.eq_ofNat_of_zero_le (show 0 ≤ id by omega)
  have htext : (toString (n : ℤ)).toList = Nat.toDigits 10 n := by
    rw [show toString (n : ℤ) = n.repr from rfl, Nat.toList_repr]
  obtain ⟨c, cs, hdigits, hne⟩ := head_toDigits (show 0 < n by omega)
  have hall : ∀ c ∈ Nat.toDigits 10 n, c.isDigit = true :=
    fun c => Nat.isDigit_of_mem_toDigits (by decide) (by decide)
  constructor
  · rw [isJobId, htext]
    rw [hdigits] at hall ⊢
    rw [List.forall_mem_cons] at hall
    simp [hall.1, hne, List.all_eq_true.mpr hall.2]
  · rw [bigint, htext, Nat.ofDigitChars_ten_toDigits]
    exact if_pos (by omega)

/-- The cursor of a row that can be listed names its position. -/
theorem JobRow.Listable.cursor (host : Host) {includePayload : Bool}
    (h : row.Listable includePayload) (hle : row.id ≤ 9223372036854775807) :
    host.validCursor row.cursor = true ∧ host.position row.cursor = some row.position := by
  obtain ⟨hid, hbigint⟩ := isJobId_toString h.1 hle
  have hcreated := h.2.1
  cases hcreatedAt : row.createdAt with
  | finite micros =>
    rw [hcreatedAt] at hcreated
    have hread := readIso_toChar (of_decide_eq_true hcreated)
    have hdate := host.dateParse_iso _ _ hread
    have htimestamptz := host.timestamptz_iso _ _ hread
    constructor
    · simp only [Host.validCursor, JobRow.cursor, hcreatedAt, Timestamp.toChar, Option.bind_some, hdate,
        hid, Bool.and_self]
    · simp only [Host.position, JobRow.cursor, hcreatedAt, Timestamp.toChar, Option.bind_eq_bind,
        Option.bind_some, htimestamptz, hbigint, JobRow.position]
  | negInfinity =>
    rw [hcreatedAt] at hcreated
    cases hcreated
  | infinity =>
    rw [hcreatedAt] at hcreated
    cases hcreated

/-! ## One page -/

/-- The rows of a page. -/
def Listing.rows (listing : Listing) (before : Option Position) (jobs : Jobs) : List JobRow :=
  Keyset.page JobRow.position listing.limit before (jobs.rows.filter fun row => listing.matches row)

theorem select_eq {jobs : Jobs} {before : Option Position} : jobs.select listing.queue
    (listing.state.map JobListState.text) before listing.limit 0 = listing.rows before jobs := by
  have hbelow : ∀ row : JobRow, before.all (row.position < ·) = decide (Keyset.Below before row.position) := by
    intro row
    cases before <;> simp [Keyset.Below]
  simp only [Jobs.select, Listing.rows, Keyset.page, List.filter_filter, List.drop_zero, hbelow,
    Listing.matches, Bool.and_comm]

/-- A page is the rows below the cursor, if the cursor is read and the rows can be listed. -/
theorem queryRecentJobs_eq {jobs : Jobs} {before : Option Cursor} {position : Option Position}
    (h : host.readBefore before = .ok position) : queryRecentJobs host jobs (listing.options before) =
      (listing.rows position jobs).mapM (·.listed listing.includePayload) := by
  have hlimit : assertInteger listing.limit "limit" 0 1000 = .ok () :=
    if_neg (by have := listing.limit_le; omega)
  have hstate : (listing.state.map JobListState.text).any
      (· ∉ ["pending", "running", "failed"]) = false := by
    cases listing.state with
    | none => rfl
    | some state => cases state <;> rfl
  have hoffset : assertInteger 0 "offset" 0 9007199254740991 = .ok () := rfl
  rw [← select_eq]
  simp only [queryRecentJobs, Listing.options, Option.getD_some, Option.getD_none, hlimit, hoffset,
    hstate, h, Option.isSome_none, Bool.and_false, Bool.false_eq_true, if_false, Int.toNat_natCast]
  rfl

/-! ## The invariant -/

/-- The rows shown so far, with the cursor that the last one left. -/
structure Inv (host : Host) (listing : Listing) (p : State × List Jobs) (rows : List JobRow) :
    Prop where
  keyset : Keyset.Listed
    (fun k => ∀ jobs ∈ contents p, ∃ row ∈ jobs.rows, row.position = k ∧ listing.matches row = true)
    (rows.map JobRow.position) (p.1.before.bind host.position)
  before : host.readBefore p.1.before = .ok (p.1.before.bind host.position)
  returned : List.Forall₂ (fun row job => row.listed listing.includePayload = .ok job)
    rows p.1.pages.flatten
  matching : ∀ row ∈ rows, listing.matches row = true ∧ ∃ jobs ∈ contents p, row ∈ jobs.rows
  listable : ∀ row ∈ rows, row.Listable listing.includePayload
  createdAt : ∀ jobs ∈ contents p, ∀ row ∈ jobs.rows, ∀ jobs' ∈ contents p, ∀ row' ∈ jobs'.rows,
    row.id = row'.id → row.createdAt = row'.createdAt
  failed : ∀ e, p.1.phase ≠ .failed e
  done : p.1.phase = .done → ∀ k,
    (∀ jobs ∈ contents p, ∃ row ∈ jobs.rows, row.position = k ∧ listing.matches row = true) →
    k ∈ rows.map JobRow.position

variable {p p' : State × List Jobs} {rows : List JobRow}

theorem Inv.write {jobs : Jobs} (h : Inv host listing p rows)
    (hsteady : Steady host listing p (.write jobs)) :
    Inv host listing ({ p.1 with jobs := jobs }, p.1.jobs :: p.2) rows := by
  have hfewer : ∀ k, (∀ jobs' ∈ jobs :: contents p,
      ∃ row ∈ jobs'.rows, row.position = k ∧ listing.matches row = true) →
      ∀ jobs' ∈ contents p, ∃ row ∈ jobs'.rows, row.position = k ∧ listing.matches row = true :=
    fun k hk jobs' hjobs' => hk jobs' (List.mem_cons_of_mem _ hjobs')
  refine { h with
    keyset := h.keyset.mono hfewer
    matching := fun row hrow => ?_
    createdAt := ?_
    done := fun hdone k hk => h.done hdone k (hfewer k hk) }
  · obtain ⟨hmatches, jobs', hjobs', hmem⟩ := h.matching row hrow
    exact ⟨hmatches, jobs', List.mem_cons_of_mem _ hjobs', hmem⟩
  · intro jobs₁ hjobs₁ row hrow jobs₂ hjobs₂ row' hrow' hid
    cases hjobs₁ with
    | head =>
      cases hjobs₂ with
      | head => exact congrArg JobRow.createdAt (List.inj_on_of_nodup_map jobs.nodup hrow hrow' hid)
      | tail _ hold => exact hsteady row hrow jobs₂ hold row' hrow' hid
    | tail _ hold =>
      cases hjobs₂ with
      | head => exact (hsteady row' hrow' jobs₁ hold row hrow hid.symm).symm
      | tail _ hold' => exact h.createdAt jobs₁ hold row hrow jobs₂ hold' row' hrow' hid

private theorem exists_mapM {includePayload : Bool} {rows : List JobRow}
    (h : ∀ row ∈ rows, row.Listable includePayload) :
    ∃ page, rows.mapM (·.listed includePayload) = .ok page ∧
      List.Forall₂ (fun row job => row.listed includePayload = .ok job) rows page := by
  induction rows with
  | nil => exact ⟨[], rfl, .nil⟩
  | cons row rows ih =>
    rw [List.forall_mem_cons] at h
    obtain ⟨job, hjob, -⟩ := h.1.exists_listed
    obtain ⟨page, hpage, hrows⟩ := ih h.2
    refine ⟨job :: page, ?_, .cons hjob hrows⟩
    rw [List.mapM_cons, hjob, hpage]
    rfl

/-- The last job of a page has the cursor of the last row. -/
private theorem getLast?_cursor {includePayload : Bool} {page : List ListedJob}
    (hlistable : ∀ row ∈ rows, row.Listable includePayload)
    (h : List.Forall₂ (fun row job => row.listed includePayload = .ok job) rows page) :
    page.getLast?.map ListedJob.cursor = rows.getLast?.map JobRow.cursor := by
  induction h with
  | nil => rfl
  | @cons row job rows page hjob hrest ih =>
    rw [List.forall_mem_cons] at hlistable
    cases hrest with
    | nil =>
      obtain ⟨job', hjob', hcursor⟩ := hlistable.1.exists_listed
      obtain rfl := Except.ok.inj (hjob.symm.trans hjob')
      simp [hcursor]
    | cons _ _ =>
      simpa only [List.getLast?_cons_cons] using ih hlistable.2

private theorem exists_row {includePayload : Bool} {page : List ListedJob}
    (h : List.Forall₂ (fun row job => row.listed includePayload = .ok job) rows page)
    {job : ListedJob} (hjob : job ∈ page) : ∃ row ∈ rows, row.listed includePayload = .ok job := by
  induction h with
  | nil => cases hjob
  | cons hlisted _ ih =>
    cases hjob with
    | head => exact ⟨_, List.mem_cons_self, hlisted⟩
    | tail _ hrest =>
      obtain ⟨row, hrow, hlisted'⟩ := ih hrest
      exact ⟨row, List.mem_cons_of_mem _ hrow, hlisted'⟩

theorem position_nodup (jobs : Jobs) (f : JobRow → Bool) :
    ((jobs.rows.filter f).map JobRow.position).Nodup := by
  have hids := jobs.nodup
  rw [List.Nodup, List.pairwise_map] at hids ⊢
  refine (hids.filter _).imp fun hne heq => hne ?_
  exact congrArg Prod.snd (congrArg ofLex heq)

/-- A page shows the next rows, or is empty once all are shown. -/
theorem Inv.page {s' : State} (h : Inv host listing p rows) (hsteady : Steady host listing p .page)
    (hstep : p.1.exec host listing .page = some s') : ∃ rows', Inv host listing (s', p.2) rows' := by
  simp only [State.exec] at hstep
  split at hstep
  · rename_i hlisting
    rw [queryRecentJobs_eq h.before] at hstep
    generalize hshown : listing.rows (p.1.before.bind host.position) p.1.jobs = shown at hstep
    have hrows : ∀ row ∈ shown, row ∈ p.1.jobs.rows ∧ listing.matches row = true ∧
        row.Listable listing.includePayload := by
      intro row hrow
      rw [← hshown] at hrow
      obtain ⟨hmem, hbelow⟩ := Keyset.mem_of_mem_page hrow
      obtain ⟨hmem, hmatches⟩ := List.mem_filter.mp hmem
      exact ⟨hmem, hmatches, hsteady row hmem hmatches hbelow⟩
    have hlistable : ∀ row ∈ shown, row.Listable listing.includePayload :=
      fun row hrow => (hrows row hrow).2.2
    obtain ⟨page, hpage, hreturned⟩ := exists_mapM hlistable
    have hlast := getLast?_cursor hlistable hreturned
    have hkeys := position_nodup p.1.jobs (fun row => listing.matches row)
    have hstays : ∀ k, (∀ jobs ∈ contents p, ∃ row ∈ jobs.rows, row.position = k ∧
        listing.matches row = true) →
        ∃ row ∈ p.1.jobs.rows.filter fun row => listing.matches row, row.position = k := by
      intro k hk
      obtain ⟨row, hrow, hposition, hmatches⟩ := hk p.1.jobs List.mem_cons_self
      exact ⟨row, List.mem_filter.mpr ⟨hrow, hmatches⟩, hposition⟩
    rw [hpage] at hstep
    simp only at hstep
    split at hstep
    · rename_i job hjob
      cases hstep
      rw [hjob, Option.map_some] at hlast
      obtain ⟨last, hshownLast, hcursor⟩ := Option.map_eq_some_iff.mp hlast.symm
      have hmem := List.mem_of_getLast? hshownLast
      obtain ⟨hvalid, hposition⟩ :=
        (hlistable last hmem).cursor host (p.1.jobs.bigint last (hrows last hmem).1)
      refine ⟨rows ++ shown, ?_⟩
      constructor
      · have hne : Keyset.page JobRow.position listing.limit (p.1.before.bind host.position)
            (p.1.jobs.rows.filter fun row => listing.matches row) ≠ [] := by
          intro hnil
          rw [← hshown, Listing.rows, hnil] at hmem
          cases hmem
        have hnext := h.keyset.page hkeys hstays hne
        rw [← Listing.rows, hshown, hshownLast, ← List.map_append] at hnext
        simp only [← hcursor, Option.bind_some, hposition]
        exact hnext
      · simp only [← hcursor, Host.readBefore, hvalid, hposition, if_true, Option.bind_some]
      · rw [List.flatten_append, List.flatten_singleton]
        exact List.rel_append h.returned hreturned
      · intro row hrow
        rw [List.mem_append] at hrow
        cases hrow with
        | inl hold => exact h.matching row hold
        | inr hnew => exact ⟨(hrows row hnew).2.1, p.1.jobs, List.mem_cons_self, (hrows row hnew).1⟩
      · intro row hrow
        rw [List.mem_append] at hrow
        exact hrow.elim (h.listable row) (hlistable row)
      · exact h.createdAt
      · exact h.failed
      · intro hdone
        cases hlisting.symm.trans hdone
    · rename_i hnone
      cases hstep
      have hnil : shown = [] := by
        rw [hnone, Option.map_none] at hlast
        exact List.getLast?_eq_none_iff.mp (Option.map_eq_none_iff.mp hlast.symm)
      refine ⟨rows, { h with failed := ?_, done := ?_ }⟩
      · intro e he
        cases he
      · intro _ k hk
        exact h.keyset.of_page_nil hkeys listing.limit_pos hstays (hshown.trans hnil) hk
  · cases hstep

/-- Where a job keeps its `created_at`, its id is shown as often as its position. -/
theorem Inv.shows (h : Inv host listing p rows) : Shows host listing p rows where
  returned := h.returned
  matching := h.matching
  descending := List.pairwise_map.mp h.keyset.descending
  once := by
    have hsorted := List.pairwise_map.mp h.keyset.descending
    rw [List.Nodup, List.pairwise_map]
    refine hsorted.imp_of_mem fun {row row'} hrow hrow' hlt hid => ?_
    obtain ⟨-, jobs, hjobs, hmem⟩ := h.matching row hrow
    obtain ⟨-, jobs', hjobs', hmem'⟩ := h.matching row' hrow'
    have hcreated := h.createdAt jobs hjobs row hmem jobs' hjobs' row' hmem' hid
    have hposition : row.position = row'.position := by simp [JobRow.position, hcreated, hid]
    exact absurd (hposition ▸ hlt) (lt_irrefl _)
  accepted job hjob := by
    obtain ⟨row, hrow, hlisted⟩ := exists_row h.returned hjob
    obtain ⟨-, jobs, -, hmem⟩ := h.matching row hrow
    obtain ⟨job', hlisted', hcursor⟩ := (h.listable row hrow).exists_listed
    obtain ⟨hvalid, hposition⟩ := (h.listable row hrow).cursor host (jobs.bigint row hmem)
    obtain rfl := Except.ok.inj (hlisted.symm.trans hlisted')
    rw [hcursor, hposition]
    exact ⟨hvalid, rfl⟩
  complete hdone id hid := by
    obtain ⟨row, hrow, rfl, -⟩ := hid p.1.jobs List.mem_cons_self
    have hstays : ∀ jobs ∈ contents p, ∃ row' ∈ jobs.rows, row'.position = row.position ∧
        listing.matches row' = true := by
      intro jobs hjobs
      obtain ⟨row', hrow', hsame, hmatches⟩ := hid jobs hjobs
      have hcreated := h.createdAt jobs hjobs row' hrow' p.1.jobs List.mem_cons_self row hrow hsame
      exact ⟨row', hrow', by simp [JobRow.position, hcreated, hsame], hmatches⟩
    obtain ⟨row', hrow', hposition⟩ := List.mem_map.mp (h.done hdone _ hstays)
    exact List.mem_map.mpr ⟨row', hrow', congrArg Prod.snd (congrArg ofLex hposition)⟩

end

theorem inv_of_reachable {host : Host} {listing : Listing} {p : State × List Jobs}
    (h : (system host listing).ReachableWith (Steady host listing) p) :
    ∃ rows, Inv host listing p rows := by
  apply h.invariant (I := fun p => ∃ rows, Inv host listing p rows)
  · rintro ⟨s, tables⟩ ⟨⟨hpages, hbefore, hphase⟩, htables⟩
    obtain rfl : tables = [] := htables
    refine ⟨[], ?_⟩
    constructor
    · rw [hbefore]
      exact Keyset.Listed.start
    · rw [hbefore]
      rfl
    · rw [hpages]
      exact .nil
    · simp
    · simp
    · intro jobs hjobs row hrow jobs' hjobs' row' hrow' hid
      cases List.mem_singleton.mp hjobs
      cases List.mem_singleton.mp hjobs'
      exact congrArg JobRow.createdAt (List.inj_on_of_nodup_map s.jobs.nodup hrow hrow' hid)
    · intro e he
      cases hphase.symm.trans he
    · intro hdone
      cases hphase.symm.trans hdone
  · rintro p e p' - ⟨rows, hinv⟩ hsteady hstep
    obtain ⟨hexec, hnote⟩ := TransitionSystem.observe_step_iff.mp hstep
    cases e with
    | write jobs =>
      refine ⟨rows, ?_⟩
      have heq : p' = ({ p.1 with jobs := jobs }, p.1.jobs :: p.2) :=
        Prod.ext (Option.some.inj hexec).symm hnote
      rw [heq]
      exact hinv.write hsteady
    | page =>
      obtain ⟨rows', hinv'⟩ := hinv.page hsteady hexec
      have heq : p' = (p'.1, p.2) := Prod.ext rfl hnote
      rw [heq]
      exact ⟨rows', hinv'⟩

/--
In every iteration in which the matching rows below the cursor can be listed and jobs keep
their `created_at`, no call throws, every cursor is accepted, the rows are in strictly
descending order and none is shown twice, and when a page is empty every job that was there
and matched all the time has been shown.
-/
theorem pages_complete {host : Host} {listing : Listing} {p : State × List Jobs}
    (h : (system host listing).ReachableWith (Steady host listing) p) : Complete host listing p := by
  obtain ⟨rows, hinv⟩ := inv_of_reachable h
  exact ⟨hinv.failed, rows, hinv.shows⟩

namespace Trace

/-- Parsers that read nothing else. -/
def host : Host where
  dateParse text := (readIso text).map (· / 1000)
  timestamptz text := (readIso text).map .finite
  dateParse_iso _ _ h := by simp [h]
  timestamptz_iso _ _ h := by simp [h]

def listing : Listing := ⟨2, by decide, by decide, some "crawl", some .pending, false⟩

/-- 2026-07-01T00:00:00.123456Z. -/
def noon : ℤ := 1782864000123456

def job (id created runAt : ℤ) : JobRow :=
  ⟨id, "crawl", .null, 0, 0, 25, .finite runAt, .finite created, none, none, none⟩

def jobs (rows : List JobRow) (h : (rows.map JobRow.id).Nodup ∧
    ∀ row ∈ rows, row.id ≤ 9223372036854775807) : Jobs :=
  ⟨rows, h.1, h.2⟩

/-- Three jobs of one batch and an older one; one job is deleted and one added between the pages. -/
def before : Jobs :=
  jobs [job 1 (noon - 1) noon, job 2 noon noon, job 3 noon noon, job 4 noon noon] (by decide)

def after : Jobs :=
  jobs [job 1 (noon - 1) noon, job 2 noon noon, job 4 noon noon, job 5 (noon + 1) noon] (by decide)

def start (jobs : Jobs) : State × List Jobs := (⟨jobs, [], none, .listing⟩, [])

def listed (p : State × List Jobs) : List String := p.1.pages.flatten.map ListedJob.id

/-- A job that waits with a timeout of 9007199254740991 ms. -/
def waiting : Jobs := jobs [job 1 noon (noon + 9007199254740991000)] (by decide)

/-- The step can be taken, as far as `before` and `after` go. -/
def steady (p : State × List Jobs) : Event → Bool
  | .page => decide (∀ row ∈ p.1.jobs.rows, row.Listable false)
  | .write jobs => decide (∀ row ∈ jobs.rows, ∀ jobs' ∈ contents p, ∀ row' ∈ jobs'.rows,
      row.id = row'.id → row.createdAt = row'.createdAt)

end Trace

theorem pages_complete_changed : ∃ p, Complete Trace.host Trace.listing p ∧
    Trace.listed p = ["4", "3", "2", "1"] ∧ p.1.phase = .done := by
  have hsteady : ∀ p e, Trace.steady p e = true → Steady Trace.host Trace.listing p e := by
    intro p e h
    cases e with
    | write jobs =>
      unfold Steady
      exact of_decide_eq_true h
    | page => exact fun row hrow _ _ => of_decide_eq_true h row hrow
  obtain ⟨p, hreach, htest⟩ := (system Trace.host Trace.listing).exists_reachableWith_of_runWith
    [.page, .write Trace.after, .page, .page]
    (fun p => Trace.listed p = ["4", "3", "2", "1"] ∧ p.1.phase = .done) hsteady
    (s := Trace.start Trace.before) ⟨⟨rfl, rfl, rfl⟩, rfl⟩ (by decide)
  exact ⟨p, pages_complete hreach, of_decide_eq_true htest⟩

/-- The time at which the wait of a job ends is no `Date`, so every page with the job throws. -/
theorem page_throws : ∃ p, (system Trace.host Trace.listing).Reachable p ∧
    p.1.phase = .failed (.rangeError "Invalid time value") ∧
    ¬Complete Trace.host Trace.listing p := by
  obtain ⟨p, hreach, htest⟩ := (system Trace.host Trace.listing).exists_reachable_of_run [.page]
    (fun p => p.1.phase = .failed (.rangeError "Invalid time value"))
    (s := Trace.start Trace.waiting) ⟨⟨rfl, rfl, rfl⟩, rfl⟩ (by decide)
  have hfailed := of_decide_eq_true htest
  exact ⟨p, hreach, hfailed, fun hcomplete => hcomplete.1 _ hfailed⟩

end BetterGraphileWorker.RecentJobs
