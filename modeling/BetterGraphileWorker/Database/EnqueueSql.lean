-- SUMMARY: The three enqueue statements on one spec: positional parameters, a populated record, and JSON read field by field.
import Mathlib.Data.Finset.Basic
import BetterGraphileWorker.StoredValues
import BetterGraphileWorker.Database.AddJobs
import BetterGraphileWorker.Database.Graphile

/-!
# Three encodings of a job spec

`addJobSql` passes a spec as parameters, `addJobsSql` as a JSON object that becomes a
`job_spec`, and `addIdempotentJobsSql` as a JSON object that `bgw_add_jobs` reads field by
field. The parameters are UTF-8 texts; a JSON function reads every escape of its document.
Graphile's `add_jobs` and `add_job` act on a table of jobs.
-/

namespace BetterGraphileWorker.EnqueueSql

/-! ## Specs -/

def timestamp (runAt : RunAt JsString) : JsString := runAt.timestamp .ofName

/-- What `resolveEnqueueSpec` returns. -/
structure EnqueueSpec where
  maxAttempts : Option ℤ
  priority : Option ℤ
  flags : Option (List JsString)
  queueName : Option JsString
  runAt : Option (RunAt JsString)
  jobKey : Option JsString
  jobKeyMode : Option JobKeyMode
  idempotencyKey : Option JsString
  /-- In milliseconds. -/
  idempotencyTtl : Option ℕ

structure IdempotentJobSpec extends EnqueueSpec where
  identifier : JsString
  /-- The fields of the payload: `injectTraceContext` returns an object. -/
  envelope : List (JsString × Wire)

def IdempotentJobSpec.payload (spec : IdempotentJobSpec) : Wire := .obj spec.envelope

/-- Each keyed spec carries the batch mode. -/
def withBatchKeyMode (specs : List IdempotentJobSpec) (preserveRunAt : Bool) : List IdempotentJobSpec :=
  specs.map fun spec =>
    if preserveRunAt && spec.jobKey.isSome then { spec with jobKeyMode := some .preserveRunAt }
    else spec

/-- A batch of one item in `resolveMany`: its spec has no mode, its flag is that of the batch. -/
def batchOf (spec : IdempotentJobSpec) : Option (IdempotentJobSpec × Bool) :=
  if spec.jobKey.isSome && spec.jobKeyMode = some .unsafeDedupe then none
  else some ({ spec with jobKeyMode := none },
    spec.jobKey.isSome && spec.jobKeyMode = some .preserveRunAt)

/-! ## The values of the statements -/

/-- An object of the fields that are defined. -/
def definedFields (fields : List (String × Option Wire)) : List (JsString × Wire) :=
  fields.filterMap fun (name, value) => value.map (JsString.ofName name, ·)

def strings (values : List JsString) : Wire := .arr (values.map .str)

def modeName : JobKeyMode → String
  | .replace => "replace"
  | .preserveRunAt => "preserve_run_at"
  | .unsafeDedupe => "unsafe_dedupe"

/-- The parameters `$1` to `$9`; `payload` and `flags` are the texts of JSON values. -/
structure AddJobValues where
  identifier : JsString
  payload : Wire
  queueName : Option JsString
  runAt : Option JsString
  maxAttempts : Option ℤ
  jobKey : Option JsString
  priority : Option ℤ
  flags : Option Wire
  jobKeyMode : JobKeyMode

def addJobSql (identifier : JsString) (payload : Wire) (spec : EnqueueSpec) : AddJobValues where
  identifier := identifier
  payload := payload
  queueName := spec.queueName
  runAt := spec.runAt.map timestamp
  maxAttempts := spec.maxAttempts
  jobKey := spec.jobKey
  priority := spec.priority
  flags := spec.flags.map strings
  jobKeyMode := spec.jobKeyMode.getD .replace

/-- The fields that both JSON encodings have. -/
def commonFields (spec : IdempotentJobSpec) : List (String × Option Wire) :=
  [("identifier", some (.str spec.identifier)), ("payload", some spec.payload),
    ("queue_name", spec.queueName.map .str),
    ("run_at", spec.runAt.map fun runAt => .str (timestamp runAt)),
    ("max_attempts", spec.maxAttempts.map fun n : ℤ => .num n), ("job_key", spec.jobKey.map .str),
    ("priority", spec.priority.map fun n : ℤ => .num n), ("flags", spec.flags.map strings)]

/-- The items of `$1`. -/
def addJobsSql (specs : List IdempotentJobSpec) : List Wire :=
  specs.map fun spec => .obj (definedFields (commonFields spec))

/-- The items of `$1`. -/
def addIdempotentJobsSql (specs : List IdempotentJobSpec) : List Wire :=
  specs.map fun spec => .obj (definedFields (commonFields spec ++
    [("job_key_mode", spec.jobKeyMode.map fun mode => .str (.ofName (modeName mode))),
      ("idempotency_key", spec.idempotencyKey.map .str),
      ("idempotency_ttl", spec.idempotencyTtl.map fun ttl : ℕ => .num ttl)]))

/-! ## Casts -/

/-- Null stays null. -/
def nullable {α β : Type} (f : α → Option β) : Option α → Option (Option β)
  | none => some none
  | some a => (f a).map some

/-- A text as the server gets it. -/
def textParameter (s : JsString) : Option JsString :=
  if (Cast.text s).accepts then some (encodeText s) else none

/-- A document as a JSON function reads it. -/
def unescaped (value : Wire) : Option Wire := if (Cast.jsonb value).accepts then some value else none

def smallint (n : ℤ) : Option ℤ := if -32768 ≤ n ∧ n ≤ 32767 then some n else none

def asText : Wire → Option JsString
  | .str s => some s
  | _ => none

def asInteger : Wire → Option ℤ
  | .num n => if n.den = 1 then smallint n.num else none
  | _ => none

/-- The elements of a JSON array of strings. -/
def asTexts : Wire → Option (List JsString)
  | .arr items => items.mapM asText
  | _ => none

/-- `array_agg` of no rows is null. -/
def arrayAgg : List JsString → Option (List JsString)
  | [] => none
  | flags => some flags

/-- A field of an object; absent and null are null. -/
def field (item : Wire) (name : String) : Option Wire :=
  match item.get? (.ofName name) with
  | none | some .null => none
  | some value => some value

def modeOf (name : JsString) : Option JobKeyMode :=
  [.replace, .preserveRunAt, .unsafeDedupe].find? fun mode => .ofName (modeName mode) = name

/-! ## The arguments of Graphile's functions -/

/-- A `job_spec`, also the arguments of `add_job`. -/
structure JobArgs where
  identifier : JsString
  payload : Option Wire
  queueName : Option JsString
  runAt : Option Time
  maxAttempts : Option ℤ
  jobKey : Option JsString
  priority : Option ℤ
  flags : Option (List JsString)

section
variable (timestamptz : JsString → Option Time)

def AddJobValues.args (values : AddJobValues) : Option JobArgs := do
  let identifier ← textParameter values.identifier
  let queueName ← nullable textParameter values.queueName
  let runAt ← nullable (fun text => (textParameter text).bind timestamptz) values.runAt
  let maxAttempts ← nullable smallint values.maxAttempts
  let jobKey ← nullable textParameter values.jobKey
  let priority ← nullable smallint values.priority
  -- `json_array_elements_text($8::json)`
  let flags ← nullable (fun flags => (unescaped flags).bind asTexts) values.flags
  some ⟨identifier, some values.payload, queueName, runAt, maxAttempts, jobKey, priority,
    flags.bind arrayAgg⟩

/-- `json_populate_record(NULL::job_spec, item)`. -/
def populateRecord (item : Wire) : Option JobArgs := do
  let item ← unescaped item
  let identifier ← (field item "identifier").bind asText
  let queueName ← nullable asText (field item "queue_name")
  let runAt ← nullable (fun value => (asText value).bind timestamptz) (field item "run_at")
  let maxAttempts ← nullable asInteger (field item "max_attempts")
  let jobKey ← nullable asText (field item "job_key")
  let priority ← nullable asInteger (field item "priority")
  let flags ← nullable asTexts (field item "flags")
  some ⟨identifier, field item "payload", queueName, runAt, maxAttempts, jobKey, priority, flags⟩

/-- The arguments that `bgw_add_jobs` reads, each with `->>` or `->`. -/
def itemArgs (item : Wire) : Option JobArgs := do
  let item ← unescaped item
  let identifier ← (field item "identifier").bind asText
  let queueName ← nullable asText (field item "queue_name")
  let runAt ← nullable (fun value => (asText value).bind timestamptz) (field item "run_at")
  let maxAttempts ← nullable asInteger (field item "max_attempts")
  let jobKey ← nullable asText (field item "job_key")
  let priority ← nullable asInteger (field item "priority")
  -- A JSON null is neither an array here nor an SQL null as a payload.
  let flags ← nullable asTexts (item.get? (.ofName "flags"))
  some ⟨identifier, item.get? (.ofName "payload"), queueName, runAt, maxAttempts, jobKey, priority,
    flags.bind arrayAgg⟩

end

/-- `coalesce(item.spec->>'job_key_mode', 'replace')`. -/
def itemMode (item : Wire) : Option JobKeyMode := do
  let item ← unescaped item
  let name ← nullable asText (field item "job_key_mode")
  modeOf (name.getD (.ofName "replace"))

/-! ## The table of jobs -/

structure Row where
  identifier : JsString
  payload : Wire
  queueName : Option JsString
  key : Option JsString
  priority : ℤ
  flags : Option (Finset JsString)
  attempts : ℤ
  maxAttempts : ℤ
  runAt : Time
  locked : Bool

structure Jobs where
  rows : Table JobId Row
  nextId : JobId

/-- `jsonb_object_agg(flag, true)` over the flags. -/
def flagSet : Option (List JsString) → Option (Finset JsString)
  | none | some [] => none
  | some flags => some flags.toFinset

/-- The row that is proposed for insertion. -/
def JobArgs.row (now : Time) (args : JobArgs) : Row where
  identifier := args.identifier
  payload := args.payload.getD (.obj [])
  queueName := args.queueName
  key := args.jobKey
  priority := args.priority.getD 0
  flags := flagSet args.flags
  attempts := 0
  maxAttempts := args.maxAttempts.getD 25
  runAt := args.runAt.getD now
  locked := false

def Row.available (row : Row) : Bool := !row.locked && row.attempts < row.maxAttempts

/-- A row that is no longer available gives its key away. -/
def Row.release (key : JsString) (row : Row) : Row :=
  if row.key = some key && !row.available then { row with key := none, attempts := row.maxAttempts }
  else row

def mergePayload : Wire → Wire → Wire
  | .arr old, .arr new => .arr (old ++ new)
  | _, new => new

theorem mergePayload_toWire (old new : Json) : mergePayload old.toWire new.toWire =
    (BetterGraphileWorker.mergePayload old new).toWire := by
  have hitems : ∀ items items' : List Json, Json.wireItems (items ++ items') =
      Json.wireItems items ++ Json.wireItems items' := by
    intro items items'
    induction items with
    | nil => rfl
    | cons item items ih => rw [List.cons_append, Json.wireItems, ih, Json.wireItems, List.cons_append]
  cases old <;> cases new <;> try rfl
  simp only [Json.toWire, mergePayload, BetterGraphileWorker.mergePayload, hitems]

/-- `ON CONFLICT (key) DO UPDATE`. -/
def Row.merge (row new : Row) (preserveRunAt : Bool) : Row :=
  { new with
    payload := mergePayload row.payload new.payload
    runAt := if preserveRunAt && row.attempts = 0 then row.runAt else new.runAt }

namespace Jobs

def withKey (jobs : Jobs) (key : Option JsString) : Option (JobId × Row) :=
  key.bind fun key => jobs.rows.find? fun _ row => row.key = some key

def insert (jobs : Jobs) (row : Row) : Jobs × JobId × Row :=
  (⟨jobs.rows.insert jobs.nextId row, jobs.nextId + 1⟩, jobs.nextId, row)

def release (jobs : Jobs) : Option JsString → Jobs
  | none => jobs
  | some key => { jobs with rows := jobs.rows.modify fun _ => Row.release key }

/-- `add_jobs` on one spec: the row that it inserts or updates. -/
def upsert (jobs : Jobs) (row : Row) (preserveRunAt : Bool) : Jobs × JobId × Row :=
  let jobs := jobs.release row.key
  match jobs.withKey row.key with
  | none => jobs.insert row
  | some (id, old) =>
    let row := old.merge row preserveRunAt
    ({ jobs with rows := jobs.rows.insert id row }, id, row)

end Jobs

def addJobs (now : Time) (preserveRunAt : Bool) : List JobArgs → Jobs → Jobs × List (JobId × Row)
  | [], jobs => (jobs, [])
  | args :: specs, jobs =>
    let (jobs, added) := jobs.upsert (args.row now) preserveRunAt
    let (jobs, rest) := addJobs now preserveRunAt specs jobs
    (jobs, added :: rest)

/-- `add_job` calls `add_jobs`, except that `unsafe_dedupe` leaves a row with the key alone. -/
def addJob (now : Time) (args : JobArgs) (mode : JobKeyMode) (jobs : Jobs) : Jobs × JobId × Row :=
  if mode = .unsafeDedupe then
    match jobs.withKey args.jobKey with
    | none => jobs.insert (args.row now)
    | some (id, row) => (jobs, id, row)
  else jobs.upsert (args.row now) (mode = .preserveRunAt)

/-! ## Matching the rows -/

/-- A token of a JSON text, without the commas and colons. -/
inductive Token where
  | null
  | bool (b : Bool)
  | num (n : Rat)
  | str (literal : List LiteralUnit)
  | openArray
  | closeArray
  | openObject
  | closeObject
deriving DecidableEq

mutual

def text : Wire → List Token
  | .null => [.null]
  | .bool b => [.bool b]
  | .num n => [.num n]
  | .str s => [.str (quote s)]
  | .arr items => .openArray :: itemTexts items ++ [.closeArray]
  | .obj fields => .openObject :: fieldTexts fields ++ [.closeObject]

def itemTexts : List Wire → List Token
  | [] => []
  | item :: items => text item ++ itemTexts items

def fieldTexts : List (JsString × Wire) → List Token
  | [] => []
  | (key, value) :: fields => .str (quote key) :: text value ++ fieldTexts fields

end

structure Fingerprint where
  runAt : Time
  maxAttempts : ℤ
  priority : ℤ
  flags : Option (Finset JsString)
  payload : List Token
deriving DecidableEq

def Row.fingerprint (row : Row) : Fingerprint :=
  ⟨row.runAt, row.maxAttempts, row.priority, row.flags, text row.payload⟩

/-- The fingerprint of a spec writes the defaults of `add_jobs` out. -/
def JobArgs.fingerprint (now : Time) (spec : JobArgs) : Fingerprint :=
  ⟨spec.runAt.getD now, spec.maxAttempts.getD 25, spec.priority.getD 0, flagSet spec.flags,
    text (spec.payload.getD (.obj []))⟩

/-- `wanted JOIN added`: the ids of the rows in the order of the specs. -/
def joinedIds (now : Time) (input : List JobArgs) (added : List (JobId × Row)) : List JobId :=
  input.zipIdx.flatMap fun item =>
    let wanted := rowMatch (·.1.jobKey) (·.1.fingerprint now) Prod.snd input.zipIdx item
    (added.filter fun row => rowMatch (·.2.key) (·.2.fingerprint) Prod.fst added row = wanted).map
      Prod.fst

/-! ## The statements -/

/-- `bgw_idempotency_keys`: the job that a task and a key stand for, and until when. -/
abbrev Keys := Table (JsString × JsString) (Option JobId × Time)

/-- `INSERT ... ON CONFLICT (queue, key) DO UPDATE ... RETURNING job_id`. -/
def claim (now expires : Time) (key : JsString × JsString) (keys : Keys) : Keys × Option JobId :=
  match keys.get? key with
  | none => (keys.insert key (none, expires), none)
  | some (id, expiresAt) =>
    if now < expiresAt then (keys, id) else (keys.insert key (none, expires), none)

structure Store where
  keys : Keys
  jobs : Jobs

section
variable (timestamptz : JsString → Option Time) (now : Time)
  -- The timestamp that many milliseconds from now, which may be out of range.
  (expiresAt : Rat → Option Time)

def runAddJobSql (spec : IdempotentJobSpec) (jobs : Jobs) : Option (Jobs × List JobId) := do
  let values := addJobSql spec.identifier spec.payload spec.toEnqueueSpec
  let args ← values.args timestamptz
  let (jobs, id, _) := addJob now args values.jobKeyMode jobs
  some (jobs, [id])

def runAddJobsSql (specs : List IdempotentJobSpec) (preserveRunAt : Bool) (jobs : Jobs) :
    Option (Jobs × List JobId) := do
  let input ← (addJobsSql specs).mapM (populateRecord timestamptz)
  let (jobs, added) := addJobs now preserveRunAt input jobs
  some (jobs, joinedIds now input added)

/-- The claim of an item's key, if it has one. -/
def claimItem (item : Wire) (keys : Keys) : Option (Keys × Option JobId) := do
  let item ← unescaped item
  match field item "idempotency_key" with
  | none => some (keys, none)
  | some key => do
    let identifier ← (field item "identifier").bind asText
    let key ← asText key
    -- `expires_at` is not null.
    let ttl ← field item "idempotency_ttl"
    let expires ← match ttl with
      | .num n => expiresAt n
      | _ => none
    some (claim now expires (identifier, key) keys)

/-- `UPDATE ... SET job_id = job_id_` on the key of an item. -/
def recordJob (item : Wire) (id : JobId) (keys : Keys) : Keys :=
  keys.modify fun key row =>
    if (field item "identifier").bind asText = some key.1 ∧
        (field item "idempotency_key").bind asText = some key.2 then (some id, row.2)
    else row

/-- One iteration of `bgw_add_jobs`. -/
def addItem (item : Wire) (store : Store) : Option (Store × JobId × Bool) := do
  let (keys, held) ← claimItem now expiresAt item store.keys
  match held with
  | some id => some (⟨keys, store.jobs⟩, id, true)
  | none => do
    let args ← itemArgs timestamptz item
    let mode ← itemMode item
    let (jobs, id, _) := addJob now args mode store.jobs
    some (⟨recordJob item id keys, jobs⟩, id, false)

def addItems : List Wire → Store → Option (Store × List (JobId × Bool))
  | [], store => some (store, [])
  | item :: items, store => do
    let (store, added) ← addItem timestamptz now expiresAt item store
    let (store, rest) ← addItems items store
    some (store, added :: rest)

def runAddIdempotentJobsSql (specs : List IdempotentJobSpec) (store : Store) :
    Option (Store × List (JobId × Bool)) :=
  addItems timestamptz now expiresAt (addIdempotentJobsSql specs) store

end

/-! ## Agreement -/

/-- An unexpired claim of the spec's key, which enqueues nothing. -/
def IdempotentJobSpec.Held (now : Time) (keys : Keys) (spec : IdempotentJobSpec) : Prop :=
  ∃ key ∈ spec.idempotencyKey, ∃ id expiresAt,
    keys.get? (spec.identifier, key) = some (some id, expiresAt) ∧ now < expiresAt

/-- The parameters of `addJobSql` pass their casts. -/
structure IdempotentJobSpec.Accepted (timestamptz : JsString → Option Time) (spec : IdempotentJobSpec) : Prop where
  identifier : 0 ∉ spec.identifier
  queueName : ∀ queueName ∈ spec.queueName, 0 ∉ queueName
  runAt : ∀ runAt ∈ spec.runAt, 0 ∉ timestamp runAt ∧ (timestamptz (encodeText (timestamp runAt))).isSome
  maxAttempts : ∀ n ∈ spec.maxAttempts, -32768 ≤ n ∧ n ≤ 32767
  jobKey : ∀ key ∈ spec.jobKey, 0 ∉ key
  priority : ∀ n ∈ spec.priority, -32768 ≤ n ∧ n ≤ 32767
  flags : ∀ flags ∈ spec.flags, ∀ flag ∈ flags, flag.Clean

/-- Every string of the spec has a value in the database. -/
structure IdempotentJobSpec.Clean (spec : IdempotentJobSpec) : Prop where
  identifier : spec.identifier.Clean
  payload : spec.payload.Clean
  queueName : ∀ queueName ∈ spec.queueName, queueName.Clean
  runAt : ∀ runAt ∈ spec.runAt, (timestamp runAt).Clean
  jobKey : ∀ key ∈ spec.jobKey, key.Clean

/-- So has its idempotency key, and the key expires at a timestamp. -/
def IdempotentJobSpec.Claimable (expiresAt : Rat → Option Time) (spec : IdempotentJobSpec) : Prop :=
  ∀ key ∈ spec.idempotencyKey, key.Clean ∧ ∃ ttl ∈ spec.idempotencyTtl, (expiresAt ttl).isSome

/-! ## Written objects -/

section
variable {name : String} {value : Option Wire} {fields : List (String × Option Wire)}

private theorem lookup_definedFields_of_forall
    (h : ∀ other ∈ fields, JsString.ofName other.1 ≠ .ofName name) :
    (definedFields fields).lookup (.ofName name) = none := by
  induction fields with
  | nil => rfl
  | cons other fields ih =>
    rw [List.forall_mem_cons] at h
    obtain ⟨other, value⟩ := other
    have hne : (JsString.ofName name == .ofName other) = false := beq_eq_false_iff_ne.mpr h.1.symm
    cases value with
    | none => exact ih h.2
    | some value =>
      simp only [definedFields, List.filterMap_cons, Option.map_some, List.lookup_cons, hne]
      exact ih h.2

/-- Every name reads the value that it was written with. -/
theorem get?_of_mem (hnodup : (fields.map fun field => JsString.ofName field.1).Nodup)
    (h : (name, value) ∈ fields) :
    (Wire.obj (definedFields fields)).get? (.ofName name) = value := by
  change (definedFields fields).lookup (.ofName name) = value
  induction fields with
  | nil => cases h
  | cons other fields ih =>
    obtain ⟨other, value'⟩ := other
    rw [List.map_cons, List.nodup_cons] at hnodup
    cases h with
    | head =>
      cases value with
      | none =>
        have hrest : (definedFields fields).lookup (.ofName name) = none := by
          apply lookup_definedFields_of_forall
          intro other hother heq
          exact hnodup.1 (List.mem_map.mpr ⟨other, hother, heq⟩)
        exact hrest
      | some value => simp [definedFields]
    | tail _ hmem =>
      have hne : (JsString.ofName name == .ofName other) = false := by
        apply beq_eq_false_iff_ne.mpr
        intro heq
        exact hnodup.1 (List.mem_map.mpr ⟨_, hmem, heq⟩)
      cases value' with
      | none => exact ih hnodup.2 hmem
      | some value' =>
        have hrest := ih hnodup.2 hmem
        simp only [definedFields, List.filterMap_cons, Option.map_some, List.lookup_cons, hne]
        exact hrest

theorem clean_definedFields (hnames : ∀ field ∈ fields, (JsString.ofName field.1).Clean) :
    (Wire.obj (definedFields fields)).Clean ↔ ∀ field ∈ fields, ∀ value ∈ field.2, value.Clean := by
  rw [Wire.clean_obj_iff]
  constructor
  · intro h field hfield value hvalue
    apply (h (.ofName field.1) value _).2
    exact List.mem_filterMap.mpr ⟨field, hfield, by simp [Option.mem_def.mp hvalue]⟩
  · intro h key value hmem
    obtain ⟨field, hfield, hentry⟩ := List.mem_filterMap.mp hmem
    obtain ⟨value', hvalue, hpair⟩ := Option.map_eq_some_iff.mp hentry
    cases hpair
    exact ⟨hnames field hfield, h field hfield value hvalue⟩

end

/-! ## Reading values -/

section
variable {α β : Type} {f : α → Option β} {o : Option α}

private theorem nullable_eq_map {g : α → β} (h : ∀ a ∈ o, f a = some (g a)) :
    nullable f o = some (o.map g) := by
  cases o with
  | none => rfl
  | some a => simp [nullable, h a rfl]

private theorem nullable_eq_bind (h : ∀ a ∈ o, (f a).isSome) : nullable f o = some (o.bind f) := by
  cases o with
  | none => rfl
  | some a =>
    obtain ⟨b, hb⟩ := Option.isSome_iff_exists.mp (h a rfl)
    simp [nullable, hb]

private theorem isSome_of_nullable {result : Option β} (h : nullable f o = some result) :
    ∀ a ∈ o, (f a).isSome := by
  rintro a rfl
  cases hf : f a with
  | none => simp [nullable, hf] at h
  | some b => rfl

private theorem nullable_map {γ : Type} {g : γ → α} {o : Option γ} :
    nullable f (o.map g) = nullable (fun a => f (g a)) o := by
  cases o <;> rfl

end

section
variable {s : JsString} {n : ℤ} {value : Wire} {texts : List JsString}

private theorem textParameter_of_mem (h : 0 ∉ s) : textParameter s = some (encodeText s) := by
  simp [textParameter, Cast.accepts, h]

private theorem isSome_textParameter : (textParameter s).isSome ↔ 0 ∉ s := by
  by_cases h : 0 ∈ s <;> simp [textParameter, Cast.accepts, h]

private theorem isSome_smallint : (smallint n).isSome ↔ -32768 ≤ n ∧ n ≤ 32767 := by
  unfold smallint
  split <;> simp_all

private theorem smallint_eq (h : -32768 ≤ n ∧ n ≤ 32767) : smallint n = some n := if_pos h

private theorem asInteger_num : asInteger (.num n) = smallint n := by
  simp [asInteger]

private theorem asTexts_strings : asTexts (strings texts) = some texts := by
  simp only [asTexts, strings]
  induction texts with
  | nil => rfl
  | cons text texts ih => simp [List.mapM_cons, asText, ih]

private theorem unescaped_of_clean (h : value.Clean) : unescaped value = some value :=
  if_pos (jsonb_accepts_iff_clean.mpr h)

private theorem clean_of_unescaped {value' : Wire} (h : unescaped value = some value') : value.Clean := by
  unfold unescaped at h
  split at h
  · rename_i haccepts
    exact jsonb_accepts_iff_clean.mp haccepts
  · cases h

private theorem clean_str : (Wire.str s).Clean ↔ s.Clean := by
  simp [Wire.Clean, Wire.strings]

private theorem clean_strings : (strings texts).Clean ↔ ∀ text ∈ texts, text.Clean := by
  have hstrings : (strings texts).strings = texts := by
    simp only [strings, Wire.strings]
    induction texts with
    | nil => rfl
    | cons text texts ih => simp [Wire.itemStrings, Wire.strings, ih]
  rw [Wire.Clean, hstrings]

private theorem clean_map {α : Type} {o : Option α} {f : α → Wire} :
    (∀ value ∈ o.map f, value.Clean) ↔ ∀ a ∈ o, (f a).Clean := by
  cases o <;> simp

private theorem clean_num {n : Rat} : (Wire.num n).Clean := by
  intro s h
  cases h

end

/-! ## One object, one record -/

section
variable {timestamptz : JsString → Option Time} {spec : IdempotentJobSpec} {item : Wire}

/-- The arguments that a spec stands for, where its strings are encoded so. -/
def IdempotentJobSpec.args (timestamptz : JsString → Option Time) (encode : JsString → JsString)
    (spec : IdempotentJobSpec) : JobArgs where
  identifier := encode spec.identifier
  payload := some spec.payload
  queueName := spec.queueName.map encode
  runAt := spec.runAt.bind fun runAt => timestamptz (encode (timestamp runAt))
  maxAttempts := spec.maxAttempts
  jobKey := spec.jobKey.map encode
  priority := spec.priority
  flags := spec.flags

/-- `array_agg` over the flags. -/
def JobArgs.aggregated (args : JobArgs) : JobArgs := { args with flags := args.flags.bind arrayAgg }

theorem row_aggregated {now : Time} {args : JobArgs} : args.aggregated.row now = args.row now := by
  have hflags : flagSet (args.flags.bind arrayAgg) = flagSet args.flags := by
    match args.flags with
    | none => rfl
    | some [] => rfl
    | some (flag :: flags) => rfl
  simp [JobArgs.row, JobArgs.aggregated, hflags]

theorem addJobSql_args (h : spec.Accepted timestamptz) :
    (addJobSql spec.identifier spec.payload spec.toEnqueueSpec).args timestamptz =
      some (spec.args timestamptz encodeText).aggregated := by
  have hrunAt : nullable (fun text => (textParameter text).bind timestamptz) (spec.runAt.map timestamp) =
      some (spec.runAt.bind fun runAt => timestamptz (encodeText (timestamp runAt))) := by
    rw [nullable_map, nullable_eq_bind]
    · apply congrArg some
      apply Option.bind_congr
      intro runAt hmem
      rw [textParameter_of_mem (h.runAt runAt hmem).1]
      rfl
    · intro runAt hmem
      rw [textParameter_of_mem (h.runAt runAt hmem).1]
      exact (h.runAt runAt hmem).2
  have hflags : nullable (fun flags => (unescaped flags).bind asTexts) (spec.flags.map strings) =
      some spec.flags := by
    rw [nullable_map]
    have hmap := nullable_eq_map (f := fun flags => (unescaped (strings flags)).bind asTexts)
      (o := spec.flags) (g := id) fun flags hmem => by
        rw [unescaped_of_clean (clean_strings.mpr (h.flags flags hmem))]
        exact asTexts_strings
    simpa using hmap
  have hmaxAttempts : nullable smallint spec.maxAttempts = some spec.maxAttempts := by
    simpa using nullable_eq_map (g := id) fun n hmem => smallint_eq (h.maxAttempts n hmem)
  have hpriority : nullable smallint spec.priority = some spec.priority := by
    simpa using nullable_eq_map (g := id) fun n hmem => smallint_eq (h.priority n hmem)
  simp only [AddJobValues.args, addJobSql, textParameter_of_mem h.identifier, hrunAt, hflags,
    hmaxAttempts, hpriority, Option.bind_eq_bind, Option.bind_some,
    nullable_eq_map fun queueName hmem => textParameter_of_mem (h.queueName queueName hmem),
    nullable_eq_map fun key hmem => textParameter_of_mem (h.jobKey key hmem)]
  rfl

/-- What `addJobSql` enqueues has parameters that pass their casts. -/
theorem accepted_of_args {args : JobArgs}
    (h : (addJobSql spec.identifier spec.payload spec.toEnqueueSpec).args timestamptz = some args) :
    spec.Accepted timestamptz := by
  simp only [AddJobValues.args, addJobSql, Option.bind_eq_bind, Option.bind_eq_some_iff] at h
  obtain ⟨_, hidentifier, _, hqueueName, _, hrunAt, _, hmaxAttempts, _, hjobKey, _, hpriority, _,
    hflags, -⟩ := h
  rw [nullable_map] at hrunAt hflags
  constructor
  · exact isSome_textParameter.mp (Option.isSome_of_mem hidentifier)
  · intro queueName hmem
    exact isSome_textParameter.mp (isSome_of_nullable hqueueName queueName hmem)
  · intro runAt hmem
    obtain ⟨time, htime⟩ := Option.isSome_iff_exists.mp (isSome_of_nullable hrunAt runAt hmem)
    obtain ⟨text, htext, hparsed⟩ := Option.bind_eq_some_iff.mp htime
    have hzero := isSome_textParameter.mp (Option.isSome_of_mem htext)
    rw [textParameter_of_mem hzero, Option.some.injEq] at htext
    rw [htext]
    exact ⟨hzero, Option.isSome_of_mem hparsed⟩
  · intro n hmem
    exact isSome_smallint.mp (isSome_of_nullable hmaxAttempts n hmem)
  · intro key hmem
    exact isSome_textParameter.mp (isSome_of_nullable hjobKey key hmem)
  · intro n hmem
    exact isSome_smallint.mp (isSome_of_nullable hpriority n hmem)
  · intro flags hmem
    obtain ⟨texts, htexts⟩ := Option.isSome_iff_exists.mp (isSome_of_nullable hflags flags hmem)
    obtain ⟨value, hvalue, -⟩ := Option.bind_eq_some_iff.mp htexts
    exact clean_strings.mp (clean_of_unescaped hvalue)

/-- The item has the fields of the spec. -/
private def Carries (item : Wire) (spec : IdempotentJobSpec) : Prop :=
  ∀ entry ∈ commonFields spec, item.get? (.ofName entry.1) = entry.2

private theorem field_eq_map {α : Type} {name : String} {o : Option α} {f : α → Wire}
    (hget : item.get? (.ofName name) = o.map f) (hnull : ∀ a, f a ≠ .null) :
    field item name = o.map f := by
  unfold field
  rw [hget]
  cases o with
  | none => rfl
  | some a =>
    cases hvalue : f a with
    | null => exact absurd hvalue (hnull a)
    | _ => simp [hvalue]

/-- The record of an item that carries a spec, as far as its casts go. -/
private theorem populateRecord_eq (h : Carries item spec) : populateRecord timestamptz item =
    (unescaped item).bind fun _ =>
      (nullable (fun runAt => timestamptz (timestamp runAt)) spec.runAt).bind fun runAt =>
        (nullable smallint spec.maxAttempts).bind fun maxAttempts =>
          (nullable smallint spec.priority).bind fun priority =>
            some ⟨spec.identifier, some spec.payload, spec.queueName, runAt, maxAttempts, spec.jobKey,
              priority, spec.flags⟩ := by
  simp only [Carries, commonFields, List.forall_mem_cons] at h
  obtain ⟨hidentifier, hpayload, hqueueName, hrunAt, hmaxAttempts, hjobKey, hpriority, hflags, -⟩ := h
  have hsame : ∀ {item' : Wire}, unescaped item = some item' → item' = item := by
    intro item' h
    unfold unescaped at h
    split at h
    · exact (Option.some.inj h).symm
    · cases h
  have hstr : ∀ {o : Option JsString}, nullable asText (o.map .str) = some o := by
    intro o
    cases o <;> rfl
  have hstrings : nullable asTexts (spec.flags.map strings) = some spec.flags := by
    rw [nullable_map]
    simpa using nullable_eq_map (g := id) fun flags _ => asTexts_strings
  have hidentifier' : field item "identifier" = some (.str spec.identifier) :=
    field_eq_map (o := some spec.identifier) hidentifier (by simp)
  have hpayload' : field item "payload" = some spec.payload :=
    field_eq_map (o := some spec.envelope) (f := .obj) hpayload (by simp)
  unfold populateRecord
  cases hitem : unescaped item with
  | none => rfl
  | some item' =>
    obtain rfl := hsame hitem
    simp only [Option.bind_eq_bind, Option.bind_some, hidentifier', hpayload', asText,
      field_eq_map hqueueName (by simp), field_eq_map hrunAt (by simp),
      field_eq_map hmaxAttempts (by simp), field_eq_map hjobKey (by simp),
      field_eq_map hpriority (by simp), field_eq_map hflags (by simp [strings]), hstr, hstrings,
      nullable_map, asInteger_num]

/-- No field that `bgw_add_jobs` reads is null, so it reads the record. -/
private theorem itemArgs_eq (h : Carries item spec) :
    itemArgs timestamptz item = (populateRecord timestamptz item).map JobArgs.aggregated := by
  simp only [Carries, commonFields, List.forall_mem_cons] at h
  obtain ⟨-, hpayload, -, -, -, -, -, hflags, -⟩ := h
  have hpayload' : field item "payload" = item.get? (.ofName "payload") := by
    rw [hpayload]
    exact field_eq_map (o := some spec.envelope) (f := .obj) hpayload (by simp)
  have hflags' : field item "flags" = item.get? (.ofName "flags") := by
    rw [hflags]
    exact field_eq_map hflags (by simp [strings])
  unfold itemArgs populateRecord
  unfold unescaped
  split
  · simp only [Option.bind_eq_bind, Option.bind_some, hpayload', hflags', Option.map_bind,
      Function.comp_def]
    rfl
  · rfl

/-- A clean spec has the same arguments in both encodings of texts. -/
private theorem args_encodeText (h : spec.Clean) :
    spec.args timestamptz encodeText = spec.args timestamptz id := by
  have hmap : ∀ {o : Option JsString}, (∀ s ∈ o, s.Clean) → o.map encodeText = o.map id := by
    intro o ho
    exact Option.map_congr fun s hs => encodeText_eq_of_clean (ho s hs)
  have hrunAt : (spec.runAt.bind fun runAt => timestamptz (encodeText (timestamp runAt))) =
      spec.runAt.bind fun runAt => timestamptz (timestamp runAt) := by
    apply Option.bind_congr
    intro runAt hmem
    rw [encodeText_eq_of_clean (h.runAt runAt hmem)]
  simp only [IdempotentJobSpec.args, encodeText_eq_of_clean h.identifier, hmap h.queueName, hrunAt,
    hmap h.jobKey]
  rfl

private theorem populateRecord_of_clean (hcarries : Carries item spec) (hitem : item.Clean)
    (hclean : spec.Clean) (h : spec.Accepted timestamptz) :
    populateRecord timestamptz item = some (spec.args timestamptz id) := by
  have hrunAt : nullable (fun runAt => timestamptz (timestamp runAt)) spec.runAt =
      some (spec.runAt.bind fun runAt => timestamptz (timestamp runAt)) := by
    apply nullable_eq_bind
    intro runAt hmem
    have hparsed := (h.runAt runAt hmem).2
    rwa [encodeText_eq_of_clean (hclean.runAt runAt hmem)] at hparsed
  have hmaxAttempts : nullable smallint spec.maxAttempts = some spec.maxAttempts := by
    simpa using nullable_eq_map (g := id) fun n hmem => smallint_eq (h.maxAttempts n hmem)
  have hpriority : nullable smallint spec.priority = some spec.priority := by
    simpa using nullable_eq_map (g := id) fun n hmem => smallint_eq (h.priority n hmem)
  rw [populateRecord_eq hcarries, unescaped_of_clean hitem, hrunAt, hmaxAttempts, hpriority]
  simp [IdempotentJobSpec.args]

private theorem accepted_of_record {args : JobArgs} (hcarries : Carries item spec)
    (hclean : spec.Clean) (hflags : ∀ flags ∈ spec.flags, ∀ flag ∈ flags, flag.Clean)
    (h : populateRecord timestamptz item = some args) : spec.Accepted timestamptz := by
  rw [populateRecord_eq hcarries] at h
  simp only [Option.bind_eq_some_iff] at h
  obtain ⟨_, -, _, hrunAt, _, hmaxAttempts, _, hpriority, -⟩ := h
  constructor
  · exact hclean.identifier.2
  · intro queueName hmem
    exact (hclean.queueName queueName hmem).2
  · intro runAt hmem
    rw [encodeText_eq_of_clean (hclean.runAt runAt hmem)]
    exact ⟨(hclean.runAt runAt hmem).2, isSome_of_nullable hrunAt runAt hmem⟩
  · intro n hmem
    exact isSome_smallint.mp (isSome_of_nullable hmaxAttempts n hmem)
  · intro key hmem
    exact (hclean.jobKey key hmem).2
  · intro n hmem
    exact isSome_smallint.mp (isSome_of_nullable hpriority n hmem)
  · exact hflags

private theorem clean_of_record {args : JobArgs} (h : populateRecord timestamptz item = some args) :
    item.Clean := by
  simp only [populateRecord, Option.bind_eq_bind, Option.bind_eq_some_iff] at h
  obtain ⟨_, hitem, -⟩ := h
  exact clean_of_unescaped hitem

/-! ## The objects of the two JSON encodings -/

/-- What a batch statement reads of a payload passes the cast that it makes of an envelope. -/
theorem accepts_of_record {args : JobArgs} {batch : EnqueueStatement} (hcarries : Carries item spec)
    (h : populateRecord timestamptz item = some args) : (batch.cast spec.payload).accepts = true := by
  simp only [Carries, commonFields, List.forall_mem_cons] at hcarries
  obtain ⟨-, hpayload, -⟩ := hcarries
  have hclean : spec.payload.Clean := (clean_of_record h).get? hpayload
  cases batch with
  | addJob => rfl
  | _ => exact jsonb_accepts_iff_clean.mpr hclean

private theorem carries_addJobs : Carries (.obj (definedFields (commonFields spec))) spec := by
  intro entry hmem
  apply get?_of_mem _ hmem
  change (["identifier", "payload", "queue_name", "run_at", "max_attempts", "job_key", "priority",
    "flags"].map JsString.ofName).Nodup
  decide

/-- The fields that only `bgw_add_jobs` reads. -/
private def keyFields (spec : IdempotentJobSpec) : List (String × Option Wire) :=
  [("job_key_mode", spec.jobKeyMode.map fun mode => .str (.ofName (modeName mode))),
    ("idempotency_key", spec.idempotencyKey.map .str),
    ("idempotency_ttl", spec.idempotencyTtl.map fun ttl : ℕ => .num ttl)]

private theorem get?_idempotent {entry : String × Option Wire}
    (h : entry ∈ commonFields spec ++ keyFields spec) :
    (Wire.obj (definedFields (commonFields spec ++ keyFields spec))).get? (.ofName entry.1) = entry.2 := by
  apply get?_of_mem _ h
  change (["identifier", "payload", "queue_name", "run_at", "max_attempts", "job_key", "priority",
    "flags", "job_key_mode", "idempotency_key", "idempotency_ttl"].map JsString.ofName).Nodup
  decide

private theorem carries_idempotent :
    Carries (.obj (definedFields (commonFields spec ++ keyFields spec))) spec :=
  fun _ hmem => get?_idempotent (List.mem_append_left _ hmem)

private theorem clean_commonFields :
    (∀ entry ∈ commonFields spec, ∀ value ∈ entry.2, value.Clean) ↔
      spec.Clean ∧ ∀ flags ∈ spec.flags, ∀ flag ∈ flags, flag.Clean := by
  simp only [commonFields, List.forall_mem_cons, clean_map, clean_str, clean_num, clean_strings]
  constructor
  · rintro ⟨hidentifier, hpayload, hqueueName, hrunAt, -, hjobKey, -, hflags, -⟩
    exact ⟨⟨clean_str.mp (hidentifier _ rfl), hpayload _ rfl, hqueueName, hrunAt, hjobKey⟩, hflags⟩
  · rintro ⟨⟨hidentifier, hpayload, hqueueName, hrunAt, hjobKey⟩, hflags⟩
    refine ⟨?_, ?_, hqueueName, hrunAt, fun _ _ => trivial, hjobKey, fun _ _ => trivial, hflags, by simp⟩
    · rintro _ ⟨⟩
      exact clean_str.mpr hidentifier
    · rintro _ ⟨⟩
      exact hpayload

private theorem clean_addJobs :
    (Wire.obj (definedFields (commonFields spec))).Clean ↔
      spec.Clean ∧ ∀ flags ∈ spec.flags, ∀ flag ∈ flags, flag.Clean := by
  rw [clean_definedFields, clean_commonFields]
  change ∀ entry ∈ commonFields spec, _
  simp only [commonFields, List.forall_mem_cons]
  decide

private theorem clean_idempotent :
    (Wire.obj (definedFields (commonFields spec ++ keyFields spec))).Clean ↔
      (spec.Clean ∧ ∀ flags ∈ spec.flags, ∀ flag ∈ flags, flag.Clean) ∧
        ∀ key ∈ spec.idempotencyKey, key.Clean := by
  have hmode : ∀ mode, (JsString.ofName (modeName mode)).Clean := by
    intro mode
    cases mode <;> decide
  rw [clean_definedFields]
  · simp only [List.forall_mem_append, clean_commonFields]
    simp only [keyFields, List.forall_mem_cons, clean_map, clean_str, clean_num, hmode]
    simp
  · simp only [commonFields, keyFields, List.forall_mem_append, List.forall_mem_cons]
    decide

end

/-! ## The effect of one spec -/

section
variable {now : Time} {jobs jobs' : Jobs} {args args' : JobArgs} {row row' : Row} {id : JobId}
  {preserveRunAt : Bool} {mode : JobKeyMode}

theorem addJob_congr (h : args.row now = args'.row now) :
    addJob now args mode jobs = addJob now args' mode jobs := by
  have hkey : args.jobKey = args'.jobKey := congrArg Row.key h
  simp only [addJob, h, hkey]

private theorem upsert_unkeyed (h : row.key = none) : jobs.upsert row preserveRunAt = jobs.insert row := by
  simp [Jobs.upsert, h, Jobs.release, Jobs.withKey]

/-- Except for `unsafe_dedupe` of a key, `add_job` is a batch of one. -/
theorem addJob_eq_upsert (h : ¬(args.jobKey.isSome ∧ mode = .unsafeDedupe)) :
    addJob now args mode jobs =
      jobs.upsert (args.row now) (args.jobKey.isSome && mode = .preserveRunAt) := by
  cases hkey : args.jobKey with
  | none =>
    have hrow : (args.row now).key = none := hkey
    rw [upsert_unkeyed hrow]
    unfold addJob
    split
    · simp [hkey, Jobs.withKey]
    · exact upsert_unkeyed hrow
  | some key =>
    have hmode : mode ≠ .unsafeDedupe := by
      intro hmode
      exact h ⟨by simp [hkey], hmode⟩
    simp [addJob, hmode]

/-- The row that comes back is in the table, new or merged into the one that had its key. -/
theorem get?_upsert (h : jobs.upsert row preserveRunAt = (jobs', id, row')) :
    jobs'.rows.get? id = some row' ∧ row'.key = row.key ∧
      (row' = row ∨ ∃ old : Row, row' = old.merge row preserveRunAt) := by
  unfold Jobs.upsert at h
  dsimp only at h
  split at h
  · cases h
    exact ⟨by simp, rfl, .inl rfl⟩
  · rename_i id' old hold
    cases h
    exact ⟨by simp, rfl, .inr ⟨old, rfl⟩⟩

/-- The one row of a batch of one is joined to its spec. -/
theorem joinedIds_one (hkey : row.key = args.jobKey)
    (hfp : args.jobKey = none → row.fingerprint = args.fingerprint now) :
    joinedIds now [args] [(id, row)] = [id] := by
  cases hargs : args.jobKey with
  | none => simp [joinedIds, rowMatch, rowNumber, List.rank, hargs, hkey, hfp hargs]
  | some key => simp [joinedIds, rowMatch, hargs, hkey]

theorem addJobs_one {added : List (JobId × Row)} (h : addJobs now preserveRunAt [args] jobs = (jobs', added)) :
    ∃ id row, jobs.upsert (args.row now) preserveRunAt = (jobs', id, row) ∧
      joinedIds now [args] added = [id] := by
  cases hupsert : jobs.upsert (args.row now) preserveRunAt with
  | mk jobs₁ added₁ =>
    obtain ⟨id, row⟩ := added₁
    simp only [addJobs, hupsert] at h
    cases h
    refine ⟨id, row, rfl, joinedIds_one (get?_upsert hupsert).2.1 ?_⟩
    intro hkey
    rw [upsert_unkeyed hkey] at hupsert
    cases hupsert
    rfl

end

/-! ## The statements on one spec -/

section
variable {timestamptz : JsString → Option Time} {now : Time} {expiresAt : Rat → Option Time}
  {spec : IdempotentJobSpec} {store : Store} {jobs : Jobs} {preserveRunAt : Bool}

/-- The result of a statement that puts a row into the table. -/
private def returned (result : Jobs × JobId × Row) : Jobs × List JobId := (result.1, [result.2.1])

private theorem runAddJobSql_of_accepted (h : spec.Accepted timestamptz) :
    runAddJobSql timestamptz now spec jobs = some (returned
      (addJob now (spec.args timestamptz encodeText) (spec.jobKeyMode.getD .replace) jobs)) := by
  rw [addJob_congr row_aggregated.symm]
  simp only [runAddJobSql, addJobSql_args h, Option.bind_eq_bind, Option.bind_some]
  rfl

private theorem runAddJobSql_eq_none (h : ¬spec.Accepted timestamptz) :
    runAddJobSql timestamptz now spec jobs = none := by
  cases hargs : (addJobSql spec.identifier spec.payload spec.toEnqueueSpec).args timestamptz with
  | none => simp [runAddJobSql, hargs]
  | some args => exact absurd (accepted_of_args hargs) h

private theorem runAddJobsSql_of_clean (hclean : spec.Clean) (h : spec.Accepted timestamptz) :
    runAddJobsSql timestamptz now [spec] preserveRunAt jobs =
      some (returned (jobs.upsert ((spec.args timestamptz id).row now) preserveRunAt)) := by
  have hrecord := populateRecord_of_clean carries_addJobs (clean_addJobs.mpr ⟨hclean, h.flags⟩) hclean h
  cases hadded : addJobs now preserveRunAt [spec.args timestamptz id] jobs with
  | mk jobs' added =>
    obtain ⟨id, row, hupsert, hids⟩ := addJobs_one hadded
    simp [runAddJobsSql, addJobsSql, hrecord, hadded, hids, hupsert, returned]

private theorem of_runAddJobsSql {result : Jobs × List JobId}
    (h : runAddJobsSql timestamptz now [spec] preserveRunAt jobs = some result) :
    spec.Clean ∧ spec.Accepted timestamptz := by
  cases hrecord : populateRecord timestamptz (.obj (definedFields (commonFields spec))) with
  | none => simp [runAddJobsSql, addJobsSql, hrecord] at h
  | some args =>
    obtain ⟨hclean, hflags⟩ := clean_addJobs.mp (clean_of_record hrecord)
    exact ⟨hclean, accepted_of_record carries_addJobs hclean hflags hrecord⟩

/-- The table of jobs and the ids that an idempotent enqueue leaves. -/
def jobsAndIds (result : Store × List (JobId × Bool)) : Jobs × List JobId :=
  (result.1.jobs, result.2.map Prod.fst)

private theorem field_idempotent {α : Type} {name : String} {o : Option α} {f : α → Wire}
    (h : (name, o.map f) ∈ commonFields spec ++ keyFields spec) (hnull : ∀ a, f a ≠ .null) :
    field (.obj (definedFields (commonFields spec ++ keyFields spec))) name = o.map f :=
  field_eq_map (get?_idempotent h) hnull

private theorem itemMode_idempotent
    (h : (Wire.obj (definedFields (commonFields spec ++ keyFields spec))).Clean) :
    itemMode (.obj (definedFields (commonFields spec ++ keyFields spec))) =
      some (spec.jobKeyMode.getD .replace) := by
  have hfield : field (.obj (definedFields (commonFields spec ++ keyFields spec))) "job_key_mode" =
      spec.jobKeyMode.map fun mode => .str (.ofName (modeName mode)) := by
    apply field_idempotent
    · apply List.mem_append_right
      simp [keyFields]
    · simp
  have hname : ∀ mode, modeOf (.ofName (modeName mode)) = some mode := by
    intro mode
    cases mode <;> decide
  simp only [itemMode, unescaped_of_clean h, Option.bind_eq_bind, Option.bind_some, hfield]
  cases spec.jobKeyMode with
  | none => exact hname .replace
  | some mode => exact hname mode

/-- A claim of a key that nothing holds returns no job. -/
private theorem claim_free {expires : Time} {key : JsString × JsString} {keys : Keys}
    (h : ¬∃ id expiresAt, keys.get? key = some (some id, expiresAt) ∧ now < expiresAt) :
    (claim now expires key keys).2 = none := by
  unfold claim
  split
  · rfl
  · rename_i id expiresAt hget
    split
    · rename_i hlt
      cases id with
      | none => rfl
      | some id => exact absurd ⟨id, expiresAt, hget, hlt⟩ h
    · rfl

private theorem claimItem_idempotent
    (h : (Wire.obj (definedFields (commonFields spec ++ keyFields spec))).Clean) :
    claimItem now expiresAt (.obj (definedFields (commonFields spec ++ keyFields spec))) store.keys =
      match spec.idempotencyKey with
      | none => some (store.keys, none)
      | some key => spec.idempotencyTtl.bind fun ttl => (expiresAt ttl).map fun expires =>
          claim now expires (spec.identifier, key) store.keys := by
  have hidentifier : field (.obj (definedFields (commonFields spec ++ keyFields spec))) "identifier" =
      (some spec.identifier).map .str := by
    apply field_idempotent
    · apply List.mem_append_left
      exact List.mem_cons_self
    · simp
  have hkey : field (.obj (definedFields (commonFields spec ++ keyFields spec))) "idempotency_key" =
      spec.idempotencyKey.map .str := by
    apply field_idempotent
    · apply List.mem_append_right
      simp [keyFields]
    · simp
  have httl : field (.obj (definedFields (commonFields spec ++ keyFields spec))) "idempotency_ttl" =
      spec.idempotencyTtl.map fun ttl : ℕ => .num ttl := by
    apply field_idempotent
    · apply List.mem_append_right
      simp [keyFields]
    · simp
  simp only [claimItem, unescaped_of_clean h, Option.bind_eq_bind, Option.bind_some, hkey, hidentifier,
    httl, Option.map_some, asText]
  cases spec.idempotencyKey with
  | none => rfl
  | some key =>
    cases spec.idempotencyTtl with
    | none => rfl
    | some ttl =>
      simp only [Option.map_some, Option.bind_some]
      cases expiresAt ttl <;> rfl

private theorem clean_of_claimItem {item : Wire} {keys : Keys} {result : Keys × Option JobId}
    (h : claimItem now expiresAt item keys = some result) : item.Clean := by
  simp only [claimItem, Option.bind_eq_bind, Option.bind_eq_some_iff] at h
  obtain ⟨_, hitem, -⟩ := h
  exact clean_of_unescaped hitem

private theorem claimItem_free (hheld : ¬spec.Held now store.keys) (hclaimable : spec.Claimable expiresAt)
    (h : (Wire.obj (definedFields (commonFields spec ++ keyFields spec))).Clean) :
    ∃ keys, claimItem now expiresAt (.obj (definedFields (commonFields spec ++ keyFields spec))) store.keys =
      some (keys, none) := by
  rw [claimItem_idempotent h]
  cases hkey : spec.idempotencyKey with
  | none => exact ⟨_, rfl⟩
  | some key =>
    obtain ⟨-, ttl, httl, hexpires⟩ := hclaimable key hkey
    obtain ⟨expires, hexpires⟩ := Option.isSome_iff_exists.mp hexpires
    have hfree : (claim now expires (spec.identifier, key) store.keys).2 = none := by
      apply claim_free
      rintro ⟨id, expiresAt, hget, hlt⟩
      exact hheld ⟨key, hkey, id, expiresAt, hget, hlt⟩
    refine ⟨(claim now expires (spec.identifier, key) store.keys).1, ?_⟩
    simp only [Option.mem_def.mp httl, Option.bind_some, hexpires, Option.map_some, ← hfree]

/-- A claimable spec whose key nothing holds goes on to `add_job`. -/
private theorem runAddIdempotentJobsSql_of_clean (hheld : ¬spec.Held now store.keys)
    (hclean : spec.Clean) (hclaimable : spec.Claimable expiresAt) (h : spec.Accepted timestamptz) :
    (runAddIdempotentJobsSql timestamptz now expiresAt [spec] store).map jobsAndIds = some (returned
      (addJob now (spec.args timestamptz id) (spec.jobKeyMode.getD .replace) store.jobs)) := by
  have hitem := clean_idempotent.mpr ⟨⟨hclean, h.flags⟩, fun key hkey => (hclaimable key hkey).1⟩
  obtain ⟨keys, hclaim⟩ := claimItem_free hheld hclaimable hitem
  have hargs : itemArgs timestamptz (.obj (definedFields (commonFields spec ++ keyFields spec))) =
      some (spec.args timestamptz id).aggregated := by
    rw [itemArgs_eq carries_idempotent, populateRecord_of_clean carries_idempotent hitem hclean h]
    rfl
  change ((addItems timestamptz now expiresAt
    [.obj (definedFields (commonFields spec ++ keyFields spec))] store).map jobsAndIds) = _
  simp only [addItems, addItem, hclaim, hargs, itemMode_idempotent hitem, Option.bind_eq_bind,
    Option.bind_some, Option.map_some, addJob_congr row_aggregated, jobsAndIds, returned, List.map_cons,
    List.map_nil]

private theorem of_runAddIdempotentJobsSql {result : Store × List (JobId × Bool)}
    (hheld : ¬spec.Held now store.keys)
    (h : runAddIdempotentJobsSql timestamptz now expiresAt [spec] store = some result) :
    spec.Clean ∧ spec.Claimable expiresAt ∧ spec.Accepted timestamptz := by
  change addItems timestamptz now expiresAt
    [.obj (definedFields (commonFields spec ++ keyFields spec))] store = some result at h
  simp only [addItems, addItem, Option.bind_eq_bind, Option.bind_eq_some_iff] at h
  obtain ⟨added, ⟨⟨keys, held⟩, hclaim, hadd⟩, -⟩ := h
  have hitem := clean_of_claimItem hclaim
  obtain ⟨⟨hclean, hflags⟩, hkeys⟩ := clean_idempotent.mp hitem
  rw [claimItem_idempotent hitem] at hclaim
  have hclaimable : spec.Claimable expiresAt := by
    intro key hkey
    simp only [Option.mem_def.mp hkey, Option.bind_eq_some_iff, Option.map_eq_some_iff] at hclaim
    obtain ⟨ttl, httl, expires, hexpires, -⟩ := hclaim
    exact ⟨hkeys key hkey, ttl, httl, Option.isSome_of_mem hexpires⟩
  have hfree : held = none := by
    obtain ⟨keys', hfree⟩ := claimItem_free hheld hclaimable hitem
    rw [claimItem_idempotent hitem, hclaim] at hfree
    exact congrArg Prod.snd (Option.some.inj hfree)
  subst hfree
  simp only [Option.bind_eq_some_iff] at hadd
  obtain ⟨args, hargs, -⟩ := hadd
  rw [itemArgs_eq carries_idempotent, Option.map_eq_some_iff] at hargs
  obtain ⟨args', hrecord, -⟩ := hargs
  exact ⟨hclean, hclaimable, accepted_of_record carries_idempotent hclean hflags hrecord⟩

/-! ## Agreement of the three encodings -/

/-- The statements on one spec return the same row's id and leave the same table of jobs, or all fail. -/
structure EncodingsAgree (timestamptz : JsString → Option Time) (now : Time)
    (expiresAt : Rat → Option Time) (spec batch : IdempotentJobSpec) (preserveRunAt : Bool)
    (store : Store) : Prop where
  batched : runAddJobsSql timestamptz now [batch] preserveRunAt store.jobs =
    runAddJobSql timestamptz now spec store.jobs
  batchedKey : (runAddIdempotentJobsSql timestamptz now expiresAt
    (withBatchKeyMode [batch] preserveRunAt) store).map jobsAndIds =
      runAddJobSql timestamptz now spec store.jobs
  key : (runAddIdempotentJobsSql timestamptz now expiresAt [spec] store).map jobsAndIds =
    runAddJobSql timestamptz now spec store.jobs

/-- The mode of a spec has no part in its casts. -/
private theorem clean_withMode {mode : Option JobKeyMode} :
    IdempotentJobSpec.Clean { spec with jobKeyMode := mode } ↔ spec.Clean :=
  ⟨fun h => ⟨h.1, h.2, h.3, h.4, h.5⟩, fun h => ⟨h.1, h.2, h.3, h.4, h.5⟩⟩

private theorem accepted_withMode {mode : Option JobKeyMode} :
    IdempotentJobSpec.Accepted timestamptz { spec with jobKeyMode := mode } ↔ spec.Accepted timestamptz :=
  ⟨fun h => ⟨h.1, h.2, h.3, h.4, h.5, h.6, h.7⟩, fun h => ⟨h.1, h.2, h.3, h.4, h.5, h.6, h.7⟩⟩

private theorem held_withMode {keys : Keys} {m : Option JobKeyMode} :
    IdempotentJobSpec.Held now keys { spec with jobKeyMode := m } ↔ spec.Held now keys :=
  Iff.rfl

/-- What every statement on a spec does that `resolveMany` takes, where its casts pass. -/
private theorem addJob_of_mode {encode : JsString → JsString} {mode : JobKeyMode}
    (hmode : ¬(spec.jobKey.isSome ∧ mode = .unsafeDedupe))
    (hpreserve : (spec.jobKey.isSome && mode = .preserveRunAt) = preserveRunAt) :
    addJob now (spec.args timestamptz encode) mode jobs =
      jobs.upsert ((spec.args timestamptz encode).row now) preserveRunAt := by
  have hkeyed : (spec.args timestamptz encode).jobKey.isSome = spec.jobKey.isSome :=
    Option.isSome_map
  rw [addJob_eq_upsert (by rwa [hkeyed]), hkeyed, hpreserve]

private theorem runAddJobSql_eq_upsert {batch : IdempotentJobSpec}
    (hbatch : batchOf spec = some (batch, preserveRunAt)) (h : spec.Accepted timestamptz) :
    runAddJobSql timestamptz now spec jobs = some (returned
      (jobs.upsert ((spec.args timestamptz encodeText).row now) preserveRunAt)) := by
  unfold batchOf at hbatch
  split at hbatch
  · cases hbatch
  · rename_i hmode
    cases hbatch
    rw [runAddJobSql_of_accepted h, addJob_of_mode]
    · intro hdedupe
      apply hmode
      cases hm : spec.jobKeyMode <;> simp_all
    · cases spec.jobKeyMode <;> simp

/-- The flag of a batch of one, as its spec carries it. -/
private theorem withBatchKeyMode_batchOf {batch : IdempotentJobSpec}
    (hbatch : batchOf spec = some (batch, preserveRunAt)) :
    withBatchKeyMode [batch] preserveRunAt =
      [{ spec with jobKeyMode := if preserveRunAt then some .preserveRunAt else none }] ∧
    (preserveRunAt = true → spec.jobKey.isSome) := by
  unfold batchOf at hbatch
  split at hbatch
  · cases hbatch
  · cases hbatch
    cases hkey : spec.jobKey.isSome with
    | false => simp [withBatchKeyMode]
    | true =>
      cases hmode : decide (spec.jobKeyMode = some .preserveRunAt) <;>
        simp [withBatchKeyMode, hkey]

private theorem runBatchedKey_of_clean {batch : IdempotentJobSpec} (hheld : ¬spec.Held now store.keys)
    (hbatch : batchOf spec = some (batch, preserveRunAt)) (hclean : spec.Clean)
    (hclaimable : spec.Claimable expiresAt) (h : spec.Accepted timestamptz) :
    (runAddIdempotentJobsSql timestamptz now expiresAt (withBatchKeyMode [batch] preserveRunAt)
      store).map jobsAndIds =
        some (returned (store.jobs.upsert ((spec.args timestamptz id).row now) preserveRunAt)) := by
  obtain ⟨hspecs, hkeyed⟩ := withBatchKeyMode_batchOf hbatch
  have hheld' := (held_withMode (m := if preserveRunAt then some .preserveRunAt else none)).not.mpr hheld
  rw [hspecs, runAddIdempotentJobsSql_of_clean hheld' (clean_withMode.mpr hclean) hclaimable
    (accepted_withMode.mpr h)]
  apply congrArg (some ∘ returned)
  apply addJob_of_mode
  · cases preserveRunAt <;> simp
  · cases preserveRunAt with
    | false => simp
    | true => simpa using hkeyed rfl

/-- No statement on a spec succeeds where the single one fails. -/
private theorem encodingsAgree_of_refused {batch : IdempotentJobSpec}
    (hbatch : batchOf spec = some (batch, preserveRunAt)) (hheld : ¬spec.Held now store.keys)
    (h : ¬spec.Accepted timestamptz) :
    EncodingsAgree timestamptz now expiresAt spec batch preserveRunAt store := by
  have hkeyed : ∀ mode, runAddIdempotentJobsSql timestamptz now expiresAt
      [{ spec with jobKeyMode := mode }] store = none := by
    intro mode
    apply Option.eq_none_iff_forall_ne_some.mpr
    intro result hresult
    exact h (accepted_withMode.mp (of_runAddIdempotentJobsSql (held_withMode.not.mpr hheld) hresult).2.2)
  constructor
  · rw [runAddJobSql_eq_none h]
    apply Option.eq_none_iff_forall_ne_some.mpr
    intro result hresult
    unfold batchOf at hbatch
    split at hbatch
    · cases hbatch
    · cases hbatch
      exact h (accepted_withMode.mp (of_runAddJobsSql hresult).2)
  · rw [runAddJobSql_eq_none h, (withBatchKeyMode_batchOf hbatch).1, hkeyed]
    rfl
  · rw [runAddJobSql_eq_none h]
    exact congrArg (Option.map jobsAndIds) (hkeyed spec.jobKeyMode)

private theorem encodingsAgree_of_clean {batch : IdempotentJobSpec}
    (hbatch : batchOf spec = some (batch, preserveRunAt)) (hheld : ¬spec.Held now store.keys)
    (hclean : spec.Clean) (hclaimable : spec.Claimable expiresAt) (h : spec.Accepted timestamptz) :
    EncodingsAgree timestamptz now expiresAt spec batch preserveRunAt store := by
  constructor
  · rw [runAddJobSql_eq_upsert hbatch h, args_encodeText hclean]
    unfold batchOf at hbatch
    split at hbatch
    · cases hbatch
    · cases hbatch
      exact runAddJobsSql_of_clean (clean_withMode.mpr hclean) (accepted_withMode.mpr h)
  · rw [runAddJobSql_eq_upsert hbatch h, args_encodeText hclean]
    exact runBatchedKey_of_clean hheld hbatch hclean hclaimable h
  · rw [runAddJobSql_of_accepted h, args_encodeText hclean]
    exact runAddIdempotentJobsSql_of_clean hheld hclean hclaimable h

/--
An added key or a batch of one never changes what a spec enqueues if and only if every
string in it, its payload and its key is well-formed without U+0000, and the key expires at
a timestamp, unless `addJobSql` refuses the spec too. The id that comes back is that of the
row that was inserted, or merged into the pending one with its key.
-/
theorem encodings_agree_iff {batch : IdempotentJobSpec}
    (hbatch : batchOf spec = some (batch, preserveRunAt)) (hheld : ¬spec.Held now store.keys) :
    (EncodingsAgree timestamptz now expiresAt spec batch preserveRunAt store ↔
      (spec.Accepted timestamptz → spec.Clean ∧ spec.Claimable expiresAt)) ∧
    ∀ jobs ids, runAddJobSql timestamptz now spec store.jobs = some (jobs, ids) →
      ∃ id row, ids = [id] ∧ jobs.rows.get? id = some row ∧
        (row = (spec.args timestamptz encodeText).row now ∨ ∃ old : Row,
          row = old.merge ((spec.args timestamptz encodeText).row now) preserveRunAt) := by
  constructor
  · constructor
    · intro hagree h
      -- The single statement succeeds, so the keyed one does.
      have hkey := hagree.key
      rw [runAddJobSql_of_accepted h, Option.map_eq_some_iff] at hkey
      obtain ⟨result, hresult, -⟩ := hkey
      obtain ⟨hclean, hclaimable, -⟩ := of_runAddIdempotentJobsSql hheld hresult
      exact ⟨hclean, hclaimable⟩
    · intro hrefused
      by_cases h : spec.Accepted timestamptz
      · exact encodingsAgree_of_clean hbatch hheld (hrefused h).1 (hrefused h).2 h
      · exact encodingsAgree_of_refused hbatch hheld h
  · intro jobs ids hresult
    have h : spec.Accepted timestamptz := by
      by_contra h
      rw [runAddJobSql_eq_none h] at hresult
      cases hresult
    rw [runAddJobSql_eq_upsert hbatch h] at hresult
    cases hupsert : store.jobs.upsert ((spec.args timestamptz encodeText).row now) preserveRunAt with
    | mk jobs' added =>
      obtain ⟨id, row⟩ := added
      rw [hupsert] at hresult
      cases hresult
      obtain ⟨hget, -, hrow⟩ := get?_upsert hupsert
      exact ⟨id, row, rfl, hget, hrow⟩

end

namespace EnqueueSqlTrace

/-- A job with a note as its payload, a key and repeated flags. -/
def noted (note : JsString) : IdempotentJobSpec where
  maxAttempts := some 5
  priority := none
  flags := some [.ofName "f", .ofName "f"]
  queueName := some (.ofName "lane")
  runAt := some (.date 0)
  jobKey := some (.ofName "key")
  jobKeyMode := some .preserveRunAt
  idempotencyKey := some (.ofName "once")
  idempotencyTtl := some 86400000
  identifier := .ofName "task"
  envelope := [(.ofName "__bgw", .num 2), (.ofName "payload", .str note)]

def batch (note : JsString) : IdempotentJobSpec := { noted note with jobKeyMode := none }

def store : Store := ⟨∅, ⟨∅, 1⟩⟩

/-- Only the one date is read. -/
def timestamptz (text : JsString) : Option Time :=
  if text = .ofName "1970-01-01T00:00:00.000Z" then some 0 else none

def expiresAt (ttl : Rat) : Option Time := some (ttl.num * 1000)

end EnqueueSqlTrace

open EnqueueSqlTrace in
theorem encodings_agree_iff_plain :
    EncodingsAgree timestamptz 0 expiresAt (noted (.ofName "hello")) (batch (.ofName "hello")) true store := by
  have hheld : ¬(noted (.ofName "hello")).Held 0 store.keys := by
    rintro ⟨key, -, id, expiresAt, hget, -⟩
    cases hget
  have hbatch : batchOf (noted (.ofName "hello")) = some (batch (.ofName "hello"), true) := rfl
  refine (encodings_agree_iff hbatch hheld).1.mpr fun _ => ⟨?_, ?_⟩
  · constructor
    · decide
    · exact jsonb_accepts_iff_clean.mp (by decide)
    · rintro _ ⟨⟩
      decide
    · rintro _ ⟨⟩
      decide
    · rintro _ ⟨⟩
      decide
  · rintro _ ⟨⟩
    exact ⟨by decide, 86400000, rfl, rfl⟩

open EnqueueSqlTrace in
/-- A note with U+0000 can be enqueued alone, but neither in a batch nor with a key. -/
theorem encodings_differ :
    batchOf (noted [0]) = some (batch [0], true) ∧ ¬(noted [0]).Held 0 store.keys ∧
    (runAddJobSql timestamptz 0 (noted [0]) store.jobs).isSome = true ∧
    (runAddJobsSql timestamptz 0 [batch [0]] true store.jobs).isSome = false ∧
    (runAddIdempotentJobsSql timestamptz 0 expiresAt [noted [0]] store).isSome = false ∧
    ¬EncodingsAgree timestamptz 0 expiresAt (noted [0]) (batch [0]) true store := by
  have hsingle : (runAddJobSql timestamptz 0 (noted [0]) store.jobs).isSome = true := by decide
  have hbatch : (runAddJobsSql timestamptz 0 [batch [0]] true store.jobs).isSome = false := by decide
  have hkey : (runAddIdempotentJobsSql timestamptz 0 expiresAt [noted [0]] store).isSome = false := by
    decide
  refine ⟨rfl, ?_, hsingle, hbatch, hkey, ?_⟩
  · rintro ⟨key, -, id, expiresAt, hget, -⟩
    cases hget
  · intro h
    rw [h.batched, hsingle] at hbatch
    cases hbatch

end BetterGraphileWorker.EnqueueSql
