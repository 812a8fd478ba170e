-- SUMMARY: The options of enqueued jobs: how call options, derived options, cron options and defaults become one spec on every path.
import BetterGraphileWorker.Database.AddJobs
import BetterGraphileWorker.Worker.ChildQueue
import BetterGraphileWorker.Worker.Durations

/-!
# Enqueue options

A spec takes each of its fields from the first source that defines it. Single jobs, batches,
prepared statements, jobs of a transaction and cron jobs resolve their specs in one
function; the native cron items repeat it. What is abstracted here is the statement that
enqueues the specs. Registries, with the identifiers of tasks, are in `Registry`.
-/

namespace BetterGraphileWorker.EnqueueOptions

/-! ## Options and contracts -/

/-- A `runAt` before it is checked, with its time unless that is invalid. -/
inductive RunAt where
  | date (time : Option ℤ)
  | text (runAt : String) (time : Option ℤ)

/-- `!runAt || Number.isFinite(new Date(runAt).getTime())`. -/
def RunAt.valid : RunAt → Bool
  | .date time => time.isSome
  | .text runAt time => runAt = "" || time.isSome

/-- The options of a call. Every source of options is written as one of these. -/
structure JobOptions where
  maxAttempts : Option JsNumber := none
  priority : Option JsNumber := none
  flags : Option (List String) := none
  queueName : Option String := none
  runAt : Option RunAt := none
  jobKey : Option String := none
  jobKeyMode : Option JobKeyMode := none
  idempotencyKey : Option String := none
  idempotencyTtl : Option JsValue := none
  validateOnEnqueue : Option Bool := none

/-- The fields that `deriveOptions` checks are any values; the others have their types. -/
structure DerivedJobOptions where
  queueName : JsValue := .undefined
  jobKey : JsValue := .undefined
  jobKeyMode : JsValue := .undefined
  priority : Option JsNumber := none
  flags : JsValue := .undefined
  idempotencyKey : JsValue := .undefined
  idempotencyTtl : Option JsValue := none

/-- What `deriveJobOptions` returns. -/
inductive Derived where
  | undefined
  | object (options : DerivedJobOptions)
  /-- Not a plain object: a promise, an array or another value. -/
  | other

structure QueueCronOptions where
  backfillPeriod : Option JsNumber := none
  maxAttempts : Option JsNumber := none
  queueName : Option String := none
  priority : Option JsNumber := none
  jobKey : Option String := none
  jobKeyMode : Option JobKeyMode := none

structure QueueContract where
  name : String
  inputSchema : Option (Schema Unit)
  cron : Option Registry.CronSchedule
  cronOptions : Option QueueCronOptions
  maxAttempts : Option JsNumber
  priority : Option JsNumber
  flags : Option (List String)
  serial : Option Registry.Serial
  /-- Called with the wire input; it can throw. -/
  deriveJobOptions : Option (Option Json → Except Thrown Derived)

namespace QueueContract

variable (queue : QueueContract)

/-- What the registry reads of the queue to name its tasks. -/
def registered : Registry.QueueContract where
  name := queue.name
  inputSchema := queue.inputSchema.isSome
  cron := queue.cron
  cronOptions := none
  maxAttempts := none
  priority := none
  timeout := none
  serial := queue.serial
  runner := none

/-- `resolveSerialQueueName`. -/
def serialQueueName : Option String := queue.serial.map (Registry.Serial.queueName queue.name)

/-- `parseQueuePayload`. -/
def parseQueuePayload (data : JsValue) (index : Option ℕ) : Except Thrown (Option Unit) :=
  ChildQueue.parseQueuePayload (⟨queue.name, queue.inputSchema, none, fun _ => .ok .undefined⟩ :
    ChildQueue Unit Unit) data index

end QueueContract

/-- A Graphile task spec with an idempotency key and its TTL in milliseconds. -/
structure EnqueueSpec where
  maxAttempts : JsNumber
  priority : Option JsNumber
  flags : Option (List String)
  queueName : Option String
  runAt : Option RunAt
  jobKey : Option String
  jobKeyMode : Option JobKeyMode
  idempotencyKey : Option String
  idempotencyTtl : Option ℕ

/-! ## Resolving options -/

def rangeError (message : String) : Thrown := .error "RangeError" message

def InRange (value : JsNumber) (min max : ℤ) : Prop :=
  ∃ n, Durations.safeInteger? value = some n ∧ min ≤ n ∧ n ≤ max

def assertInteger (value : JsNumber) (label : String) (min max : ℤ) : Except Thrown Unit :=
  match Durations.safeInteger? value with
  | some n =>
    if min ≤ n ∧ n ≤ max then .ok ()
    else .error (rangeError s!"{label} must be an integer between {min} and {max}")
  | none => .error (rangeError s!"{label} must be an integer between {min} and {max}")

/-- `{ ...derived, ...compact(explicit) }`. -/
def JobOptions.over (explicit derived : JobOptions) : JobOptions where
  maxAttempts := explicit.maxAttempts <|> derived.maxAttempts
  priority := explicit.priority <|> derived.priority
  flags := explicit.flags <|> derived.flags
  queueName := explicit.queueName <|> derived.queueName
  runAt := explicit.runAt <|> derived.runAt
  jobKey := explicit.jobKey <|> derived.jobKey
  jobKeyMode := explicit.jobKeyMode <|> derived.jobKeyMode
  idempotencyKey := explicit.idempotencyKey <|> derived.idempotencyKey
  idempotencyTtl := explicit.idempotencyTtl <|> derived.idempotencyTtl
  validateOnEnqueue := explicit.validateOnEnqueue <|> derived.validateOnEnqueue

/-- `JOB_KEY_MODES`. -/
def jobKeyMode? : String → Option JobKeyMode
  | "replace" => some .replace
  | "preserve_run_at" => some .preserveRunAt
  | "unsafe_dedupe" => some .unsafeDedupe
  | _ => none

def modeText : JobKeyMode → String
  | .replace => "replace"
  | .preserveRunAt => "preserve_run_at"
  | .unsafeDedupe => "unsafe_dedupe"

section
variable (queue : QueueContract)

/-- A text that `deriveJobOptions` returned under a key. -/
def derivedText (key : String) : JsValue → Except Thrown (Option String)
  | .undefined => .ok none
  | .string text =>
    if text = "" then .error (.error "TypeError"
      s!"deriveJobOptions for \"{queue.name}\" returned an empty or non-string {key}")
    else .ok (some text)
  | _ => .error (.error "TypeError"
      s!"deriveJobOptions for \"{queue.name}\" returned an empty or non-string {key}")

def derivedKeyMode (mode : JsValue) : Except Thrown (Option JobKeyMode) :=
  match mode with
  | .undefined => .ok none
  | mode =>
    let known := match mode with
      | .string text => jobKeyMode? text
      | _ => none
    match known with
    | some known => .ok (some known)
    | none => .error (.error "TypeError"
        s!"deriveJobOptions for \"{queue.name}\" returned an invalid jobKeyMode")

def flag? : JsValue → Option String
  | .string text => some text
  | _ => none

def derivedFlags (flags : JsValue) : Except Thrown (Option (List String)) :=
  match flags with
  | .undefined => .ok none
  | flags =>
    let texts := match flags with
      | .array _ items => items.mapM flag?
      | _ => none
    match texts with
    | some texts => .ok (some texts)
    | none => .error (.error "TypeError"
        s!"deriveJobOptions for \"{queue.name}\" returned invalid flags")

/-- The checks of an object that it returned. -/
def checkDerived (derived : DerivedJobOptions) : Except Thrown JobOptions := do
  let queueName ← derivedText queue "queueName" derived.queueName
  let jobKey ← derivedText queue "jobKey" derived.jobKey
  let idempotencyKey ← derivedText queue "idempotencyKey" derived.idempotencyKey
  let jobKeyMode ← derivedKeyMode queue derived.jobKeyMode
  let flags ← derivedFlags queue derived.flags
  pure { queueName, jobKey, jobKeyMode, flags, idempotencyKey
         priority := derived.priority
         idempotencyTtl := derived.idempotencyTtl }

def deriveOptions (input : Option Json) : Except Thrown (Option JobOptions) :=
  match queue.deriveJobOptions with
  | none => .ok none
  | some derive => do
    match ← derive input with
    | .undefined => pure none
    | .other => throw (.error "TypeError"
        s!"deriveJobOptions for \"{queue.name}\" must return a plain object synchronously")
    | .object derived =>
      let options ← checkDerived queue derived
      pure (some options)

/-- `DEFAULT_IDEMPOTENCY_TTL`. -/
def defaultIdempotencyTtl : ℕ := 2592000000

def resolveIdempotencyTtl : Option JsValue → Except Thrown ℕ
  | none => .ok defaultIdempotencyTtl
  | some ttl => (Durations.parseDuration ttl "idempotencyTtl").mapError rangeError

/-- The checks of `resolveEnqueueSpec` on options of a call, with the TTL. -/
def checkOptions (options : JobOptions) : Except Thrown ℕ := do
  if options.runAt.any fun runAt => !runAt.valid then
    throw (rangeError "runAt must be a valid timestamp")
  if options.idempotencyKey = some "" then
    throw (.error "TypeError" "idempotencyKey must be a non-empty string")
  resolveIdempotencyTtl options.idempotencyTtl

/-- Precedence: explicit call options, derived options, then queue defaults. -/
def resolveEnqueueSpec (explicit : JobOptions) (defaultMaxAttempts : JsNumber) (cron : Bool)
    (derived : Option JobOptions) : Except Thrown EnqueueSpec := do
  let options := match derived with
    | some derived => explicit.over derived
    | none => explicit
  let cronOptions := if cron then queue.cronOptions else none
  let maxAttempts := (options.maxAttempts <|> cronOptions.bind (·.maxAttempts) <|>
    queue.maxAttempts).getD defaultMaxAttempts
  let priority := options.priority <|> cronOptions.bind (·.priority) <|> queue.priority
  assertInteger maxAttempts "maxAttempts" 1 32767
  priority.forM fun priority => assertInteger priority "priority" (-32768) 32767
  let idempotencyTtl ← checkOptions options
  pure {
    maxAttempts, priority
    flags := options.flags <|> queue.flags
    queueName := options.queueName <|> cronOptions.bind (·.queueName) <|> queue.serialQueueName
    runAt := options.runAt
    jobKey := options.jobKey <|> cronOptions.bind (·.jobKey)
    jobKeyMode := options.jobKeyMode <|> cronOptions.bind (·.jobKeyMode)
    idempotencyKey := options.idempotencyKey
    idempotencyTtl := options.idempotencyKey.map fun _ => idempotencyTtl }

end

/-! ## The enqueue paths -/

/-- What `resolveOne` returns. -/
structure ResolvedJob where
  task : String
  payload : Option Json
  spec : EnqueueSpec

/-- What `resolveMany` returns; its specs have no `jobKeyMode`. -/
structure ResolvedJobs where
  specs : List ResolvedJob
  preserveRunAt : Bool
  idempotent : Bool

/-- The options of `bindCreateJob` that resolving reads. -/
structure Client where
  queues : List QueueContract
  validateOnEnqueue : Option Bool
  defaultMaxAttempts : Option JsNumber
  /-- `toJsonCompat` in mode `json-compat`, nothing in mode `strict`. -/
  toJsonCompat : Option (JsValue → Except Thrown JsValue)
  transactionalJobKeyMode : Option JobKeyMode

/-- The mode that a default fills in: one that no call, derived or cron option chose. -/
def EnqueueSpec.fill (defaultJobKeyMode : Option JobKeyMode) (spec : EnqueueSpec) : EnqueueSpec :=
  { spec with jobKeyMode := spec.jobKeyMode <|> spec.jobKey.bind fun _ => defaultJobKeyMode }

/-- The keys of a batch with the indices of their items, and the mode that they have. -/
structure SeenKeys where
  keys : List (String × ℕ)
  keyMode : Option JobKeyMode

/-- `add_jobs` has one preserve_run_at flag per call and no unsafe_dedupe. -/
def SeenKeys.check (seen : SeenKeys) (index : ℕ) (spec : EnqueueSpec) : Except Thrown SeenKeys :=
  match spec.jobKey with
  | none => .ok seen
  | some key =>
    let mode := spec.jobKeyMode.getD .replace
    if mode = .unsafeDedupe ∨ seen.keyMode.any (· ≠ mode) then
      .error (.error "Error" (s!"createJobs item {index} uses jobKeyMode \"{modeText mode}\"; a batch " ++
        "needs one of \"replace\" or \"preserve_run_at\" for every keyed item"))
    else match seen.keys.lookup key with
      | some first => .error (.error "Error"
          s!"createJobs items {first} and {index} share jobKey \"{key}\"")
      | none => .ok ⟨(key, index) :: seen.keys, some mode⟩

/-- `{ jobKeyMode, ...spec }` leaves the mode out. -/
def ResolvedJob.withoutMode (job : ResolvedJob) : ResolvedJob :=
  { job with spec := { job.spec with jobKeyMode := none } }

namespace Client

variable (client : Client)

/-- `options.defaultMaxAttempts ?? DEFAULT_GRAPHILE_JOB_MAX_ATTEMPTS`. -/
def maxAttempts : JsNumber := client.defaultMaxAttempts.getD (.finite 4)

def find (name : String) : Except Thrown QueueContract :=
  match client.queues.find? (·.name = name) with
  | some queue => .ok queue
  | none => .error (.error "UnknownQueueError"
      (Registry.RegistryError.message (.unknownQueue name (client.queues.map (·.name)))))

/-- The checks of `bindCreateJob` on one queue. -/
def checkQueue (queue : QueueContract) : Except Thrown Unit :=
  if queue.inputSchema.isNone && queue.cron.isNone then
    .error (.error "TypeError" s!"Queue \"{queue.name}\" requires an inputSchema or cron schedule")
  else do
    let _ ← resolveEnqueueSpec queue {} client.maxAttempts false none
    if queue.cron.isSome then do
      let _ ← resolveEnqueueSpec queue {} client.maxAttempts true none
      (queue.cronOptions.bind (·.backfillPeriod)).forM fun period =>
        assertInteger period "backfillPeriod" 0 9007199254740991
    else pure ()

/-- `bindCreateJob`. -/
def bindCreateJob : Except Thrown Unit := do
  (Registry.assertUniqueQueueNames (client.queues.map (·.registered))).mapError fun error =>
    Thrown.error "Error" error.message
  assertInteger client.maxAttempts "defaultMaxAttempts" 1 32767
  client.queues.forM client.checkQueue

/-- The wire input of a payload. -/
def wire (data : JsValue) : Except Thrown JsValue :=
  match client.toJsonCompat with
  | some toJsonCompat => toJsonCompat data
  | none => .ok data

def prepare (queue : QueueContract) (data : JsValue) (options : JobOptions) (index : Option ℕ) :
    Except Thrown (Option Json) := do
  let wire ← client.wire data
  wire.assertJsonValue
  if (options.validateOnEnqueue <|> client.validateOnEnqueue).getD true then do
    let _ ← queue.parseQueuePayload (.ofStored wire.snapshot) index
    pure wire.snapshot
  else pure wire.snapshot

/-- The payload and the derived options of a call with input. -/
def prepareInput (queue : QueueContract) (data : JsValue) (options : JobOptions) (index : Option ℕ) :
    Except Thrown (Option Json × Option JobOptions) := do
  let payload ← client.prepare queue data options index
  let derived ← deriveOptions queue payload
  pure (payload, derived)

/-- The payload and the derived options of a single job. -/
def input (queue : QueueContract) (data : JsValue) (options : JobOptions) (noInput : Bool) :
    Except Thrown (Option Json × Option JobOptions) :=
  if noInput then .ok (none, none) else client.prepareInput queue data options none

def resolveOne (name : String) (data : JsValue) (options : JobOptions) (cron : Bool)
    (defaultJobKeyMode : Option JobKeyMode) : Except Thrown ResolvedJob := do
  let queue ← client.find name
  if cron && queue.cron.isNone then
    .error (.error "Error" (Registry.RegistryError.message (.noSchedule name)))
  else do
    let task := if cron && queue.registered.type = .cronInit then name ++ Registry.cronInitSuffix else name
    let noInput := cron || queue.registered.type = .cron
    let input ← client.input queue data options noInput
    let spec ← resolveEnqueueSpec queue options client.maxAttempts noInput input.2
    pure ⟨task, input.1, spec.fill defaultJobKeyMode⟩

/-- An item of a batch, with the mode that the loop takes off its spec. -/
def resolveItem (queue : QueueContract) (options : JobOptions) (index : ℕ) (item : JsValue) :
    Except Thrown ResolvedJob := do
  let input ← client.prepareInput queue item options (some index)
  let spec ← resolveEnqueueSpec queue options client.maxAttempts false input.2
  pure ⟨queue.name, input.1, spec⟩

/-- The loop of `resolveMany` from an index on; it returns the items and the batch's mode. -/
def resolveItems (queue : QueueContract) (options : JobOptions) (index : ℕ) (seen : SeenKeys) :
    List JsValue → Except Thrown (List ResolvedJob × Option JobKeyMode)
  | [] => .ok ([], seen.keyMode)
  | item :: items => do
    let job ← client.resolveItem queue options index item
    let seen ← seen.check index job.spec
    let rest ← resolveItems queue options (index + 1) seen items
    pure (job.withoutMode :: rest.1, rest.2)

def resolveMany (name : String) (data : List JsValue) (options : JobOptions) :
    Except Thrown ResolvedJobs := do
  let queue ← client.find name
  if queue.inputSchema.isNone then
    .error (.error "Error" (Registry.RegistryError.message (.cronBatch name)))
  else if options.jobKeyMode.isSome || options.jobKey.isSome || options.idempotencyKey.isSome then
    .error (.error "Error" ("createJobs cannot use jobKey, jobKeyMode or idempotencyKey; " ++
      "derive per-item keys with deriveJobOptions"))
  else do
    let _ ← resolveEnqueueSpec queue options client.maxAttempts false none
    let items ← client.resolveItems queue options 0 ⟨[], none⟩ data
    pure ⟨items.1, items.2 = some .preserveRunAt, items.1.any (·.spec.idempotencyKey.isSome)⟩

end Client

/-- `withBatchKeyMode` on the spec of one item. -/
def withBatchKeyMode (preserveRunAt : Bool) (spec : EnqueueSpec) : EnqueueSpec :=
  if preserveRunAt && spec.jobKey.isSome then { spec with jobKeyMode := some .preserveRunAt } else spec

/-- The mode of a key in `add_job`. -/
def EnqueueSpec.keyMode (spec : EnqueueSpec) : Option JobKeyMode :=
  spec.jobKey.map fun _ => spec.jobKeyMode.getD .replace

/-- The mode of an item's key in `bgw_add_jobs`, or in `add_jobs` with its flag. -/
def ResolvedJobs.keyMode (jobs : ResolvedJobs) (spec : EnqueueSpec) : Option JobKeyMode :=
  if jobs.idempotent then (withBatchKeyMode jobs.preserveRunAt spec).keyMode
  else spec.jobKey.map fun _ => if jobs.preserveRunAt then .preserveRunAt else .replace

/-- The paths that enqueue one job; prepared jobs are those of createJob. -/
inductive Path where
  | createJob
  | prepareJob
  | triggerCron
  | enqueueInTransaction
deriving DecidableEq

def Client.enqueue (client : Client) (path : Path) (name : String) (data : JsValue)
    (options : JobOptions) : Except Thrown ResolvedJob :=
  match path with
  | .createJob | .prepareJob => client.resolveOne name data options false none
  | .triggerCron => client.resolveOne name .undefined options true none
  | .enqueueInTransaction =>
    client.resolveOne name data options false client.transactionalJobKeyMode

/-! ## Cron items -/

structure CronItemOptions where
  maxAttempts : JsNumber
  backfillPeriod : Option JsNumber
  queueName : Option String
  priority : Option JsNumber
  jobKey : Option String
  jobKeyMode : Option JobKeyMode

structure CronItem where
  task : String
  schedule : Registry.CronMatch
  options : CronItemOptions

/-- The items of one queue in `buildCronItems`, without the identifiers. -/
def cronItems (defaultMaxAttempts : JsNumber) (queue : QueueContract) : Except Thrown (List CronItem) := do
  let options := queue.cronOptions
  let _ ← resolveEnqueueSpec queue {} defaultMaxAttempts true none
  pure <| (Registry.cronMatches queue.cron).map fun schedule =>
    { task := queue.registered.cronTask
      schedule
      options := {
        maxAttempts := (options.bind (·.maxAttempts) <|> queue.maxAttempts).getD defaultMaxAttempts
        backfillPeriod := options.bind (·.backfillPeriod)
        queueName := options.bind (·.queueName) <|> queue.serialQueueName
        priority := options.bind (·.priority) <|> queue.priority
        jobKey := options.bind (·.jobKey)
        jobKeyMode := options.bind (·.jobKeyMode) } }

def buildCronItems (queues : List QueueContract) (defaultMaxAttempts : JsNumber) :
    Except Thrown (List CronItem) := do
  let items ← (queues.filter (·.registered.scheduled)).mapM (cronItems defaultMaxAttempts)
  pure items.flatten

/-! ## Precedence -/

/-- The cron options, as a source. -/
def QueueCronOptions.source (options : QueueCronOptions) : JobOptions where
  maxAttempts := options.maxAttempts
  queueName := options.queueName
  priority := options.priority
  jobKey := options.jobKey
  jobKeyMode := options.jobKeyMode

/-- The defaults of a queue, as a source. -/
def QueueContract.source (queue : QueueContract) : JobOptions where
  maxAttempts := queue.maxAttempts
  priority := queue.priority
  flags := queue.flags
  queueName := queue.serialQueueName

/-- The sources of a spec: call, derived options, cron options, queue and worker. -/
def sources (queue : QueueContract) (explicit : JobOptions) (defaultMaxAttempts : JsNumber)
    (cron : Bool) (derived : Option JobOptions) : List JobOptions :=
  [explicit] ++ derived.toList ++
    (if cron then queue.cronOptions else none).toList.map QueueCronOptions.source ++
    [queue.source, { maxAttempts := some defaultMaxAttempts }]

/-- Each field is the first that a source defines. A TTL without a key has nothing to hold. -/
structure Precedence (sources : List JobOptions) (defaultJobKeyMode : Option JobKeyMode)
    (spec : EnqueueSpec) : Prop where
  maxAttempts : some spec.maxAttempts = sources.findSome? (·.maxAttempts)
  priority : spec.priority = sources.findSome? (·.priority)
  flags : spec.flags = sources.findSome? (·.flags)
  queueName : spec.queueName = sources.findSome? (·.queueName)
  runAt : spec.runAt = sources.findSome? (·.runAt)
  jobKey : spec.jobKey = sources.findSome? (·.jobKey)
  jobKeyMode : spec.jobKeyMode = (sources.findSome? (·.jobKeyMode) <|>
    spec.jobKey.bind fun _ => defaultJobKeyMode)
  idempotencyKey : spec.idempotencyKey = sources.findSome? (·.idempotencyKey)
  idempotencyTtl : ∃ ttl, resolveIdempotencyTtl (sources.findSome? (·.idempotencyTtl)) = .ok ttl ∧
    spec.idempotencyTtl = spec.idempotencyKey.map fun _ => ttl

/-- The ranges that the construction checks. -/
structure EnqueueSpec.Ranged (spec : EnqueueSpec) : Prop where
  maxAttempts : InRange spec.maxAttempts 1 32767
  priority : ∀ priority ∈ spec.priority, InRange priority (-32768) 32767

section
variable {queue : QueueContract} {explicit : JobOptions} {defaultMaxAttempts : JsNumber} {cron : Bool}
  {derived : Option JobOptions} {spec : EnqueueSpec}

/-- The check that durations go through, with the error that is thrown. -/
theorem assertInteger_eq {value : JsNumber} {label : String} {min max : ℤ} :
    assertInteger value label min max =
      ((Durations.assertInteger value label min max).mapError rangeError).map fun _ => () := by
  unfold assertInteger Durations.assertInteger
  cases Durations.safeInteger? value with
  | none => rfl
  | some n => by_cases hn : min ≤ n ∧ n ≤ max <;> simp [hn, Except.map, Except.mapError]

theorem resolveIdempotencyTtl_eq {ttl : Option JsValue} :
    resolveIdempotencyTtl ttl = (Durations.resolveIdempotencyTtl ttl).mapError rangeError := by
  cases ttl <;> rfl

theorem assertInteger_ok_iff {value : JsNumber} {label : String} {min max : ℤ} :
    assertInteger value label min max = .ok () ↔ InRange value min max := by
  unfold assertInteger InRange
  cases hvalue : Durations.safeInteger? value with
  | none => simp
  | some n => by_cases hn : min ≤ n ∧ n ≤ max <;> simp [hn]

theorem forM_ok_iff {value : Option JsNumber} {label : String} {min max : ℤ} :
    (value.forM fun value => assertInteger value label min max) = .ok () ↔
      ∀ n ∈ value, InRange n min max := by
  cases value with
  | none => simp [Option.forM, pure, Except.pure]
  | some value => simp [Option.forM, assertInteger_ok_iff]

theorem checkOptions_ok_iff {options : JobOptions} {ttl : ℕ} : checkOptions options = .ok ttl ↔
    (∀ runAt ∈ options.runAt, runAt.valid = true) ∧ options.idempotencyKey ≠ some "" ∧
      resolveIdempotencyTtl options.idempotencyTtl = .ok ttl := by
  unfold checkOptions
  cases options.runAt with
  | none =>
    by_cases hkey : options.idempotencyKey = some "" <;>
      simp [hkey, throw, throwThe, MonadExceptOf.throw, bind, Except.bind]
  | some runAt =>
    cases hvalid : runAt.valid <;> by_cases hkey : options.idempotencyKey = some "" <;>
      simp [hvalid, hkey, throw, throwThe, MonadExceptOf.throw, bind, Except.bind]

/-- The options that a call and its derived options make together. -/
def merged (explicit : JobOptions) : Option JobOptions → JobOptions
  | some derived => explicit.over derived
  | none => explicit

/-- What `resolveEnqueueSpec` returns if its checks pass. -/
def uncheckedSpec (queue : QueueContract) (options : JobOptions) (defaultMaxAttempts : JsNumber)
    (cron : Bool) (ttl : ℕ) : EnqueueSpec :=
  let cronOptions := if cron then queue.cronOptions else none
  { maxAttempts := (options.maxAttempts <|> cronOptions.bind (·.maxAttempts) <|>
      queue.maxAttempts).getD defaultMaxAttempts
    priority := options.priority <|> cronOptions.bind (·.priority) <|> queue.priority
    flags := options.flags <|> queue.flags
    queueName := options.queueName <|> cronOptions.bind (·.queueName) <|> queue.serialQueueName
    runAt := options.runAt
    jobKey := options.jobKey <|> cronOptions.bind (·.jobKey)
    jobKeyMode := options.jobKeyMode <|> cronOptions.bind (·.jobKeyMode)
    idempotencyKey := options.idempotencyKey
    idempotencyTtl := options.idempotencyKey.map fun _ => ttl }

theorem resolveEnqueueSpec_ok_iff :
    resolveEnqueueSpec queue explicit defaultMaxAttempts cron derived = .ok spec ↔
      ∃ ttl, checkOptions (merged explicit derived) = .ok ttl ∧ spec.Ranged ∧
        spec = uncheckedSpec queue (merged explicit derived) defaultMaxAttempts cron ttl := by
  have hmerged : resolveEnqueueSpec queue explicit defaultMaxAttempts cron derived = (do
      let unchecked := uncheckedSpec queue (merged explicit derived) defaultMaxAttempts cron 0
      assertInteger unchecked.maxAttempts "maxAttempts" 1 32767
      unchecked.priority.forM fun priority => assertInteger priority "priority" (-32768) 32767
      let ttl ← checkOptions (merged explicit derived)
      pure (uncheckedSpec queue (merged explicit derived) defaultMaxAttempts cron ttl)) := by
    cases derived <;> rfl
  rw [hmerged]
  constructor
  · intro h
    obtain ⟨_, hattempts, h⟩ := Registry.bind_eq_ok.mp h
    obtain ⟨_, hpriority, h⟩ := Registry.bind_eq_ok.mp h
    obtain ⟨ttl, hoptions, h⟩ := Registry.bind_eq_ok.mp h
    cases h
    exact ⟨ttl, hoptions, ⟨assertInteger_ok_iff.mp hattempts, forM_ok_iff.mp hpriority⟩, rfl⟩
  · intro h
    obtain ⟨ttl, hoptions, hranged, rfl⟩ := h
    apply Registry.bind_eq_ok.mpr
    refine ⟨(), assertInteger_ok_iff.mpr hranged.maxAttempts, ?_⟩
    apply Registry.bind_eq_ok.mpr
    refine ⟨(), forM_ok_iff.mpr hranged.priority, ?_⟩
    apply Registry.bind_eq_ok.mpr
    exact ⟨ttl, hoptions, rfl⟩

/-- The `runAt` that `timestamp` writes. `toISOString` throws for an invalid Date. -/
def RunAt.written : RunAt → Option (BetterGraphileWorker.RunAt String)
  | .date time => time.map .date
  | .text runAt _ => some (.text runAt)

theorem RunAt.isSome_written {runAt : RunAt} (h : runAt.valid = true) :
    runAt.written.isSome = true := by
  cases runAt with
  | date time => simpa [RunAt.written, RunAt.valid] using h
  | text runAt time => rfl

/-- The statements can write the `runAt` of every spec that they get. -/
theorem isSome_written_of_resolveEnqueueSpec
    (h : resolveEnqueueSpec queue explicit defaultMaxAttempts cron derived = .ok spec) :
    ∀ runAt ∈ spec.runAt, runAt.written.isSome = true := by
  obtain ⟨ttl, hoptions, -, rfl⟩ := resolveEnqueueSpec_ok_iff.mp h
  intro runAt hrunAt
  exact RunAt.isSome_written ((checkOptions_ok_iff.mp hoptions).1 runAt hrunAt)

private theorem findSome_cons {β : Type} (source : JobOptions) (rest : List JobOptions)
    (field : JobOptions → Option β) :
    (source :: rest).findSome? field = (field source).or (rest.findSome? field) := by
  rw [List.findSome?_cons]
  cases field source <;> rfl

/-- The first value that the sources define, one source after the other. -/
theorem findSome_sources {β : Type} (field : JobOptions → Option β) :
    (sources queue explicit defaultMaxAttempts cron derived).findSome? field =
      (field explicit <|> derived.bind field <|>
        (if cron then queue.cronOptions else none).bind (field ·.source) <|>
        field queue.source <|> field { maxAttempts := some defaultMaxAttempts }) := by
  unfold sources
  generalize (if cron then queue.cronOptions else none) = cronOptions
  cases derived <;> cases cronOptions <;> simp [findSome_cons]

/-- A field of the merged options is that of the call, or else the derived one. -/
theorem merged_field {β : Type} (field : JobOptions → Option β)
    (hover : ∀ explicit derived : JobOptions,
      field (explicit.over derived) = (field explicit <|> field derived)) :
    field (merged explicit derived) = (field explicit <|> derived.bind field) := by
  cases derived with
  | none => simp [merged]
  | some derived => exact hover explicit derived

theorem precedence_of_ok
    (h : resolveEnqueueSpec queue explicit defaultMaxAttempts cron derived = .ok spec) :
    Precedence (sources queue explicit defaultMaxAttempts cron derived) none spec ∧ spec.Ranged := by
  obtain ⟨ttl, hoptions, hranged, rfl⟩ := resolveEnqueueSpec_ok_iff.mp h
  refine ⟨?_, hranged⟩
  have httl := (checkOptions_ok_iff.mp hoptions).2.2
  -- The other sources define nothing for the fields that they lack.
  constructor <;> rw [findSome_sources]
  · simp [uncheckedSpec, QueueContract.source, QueueCronOptions.source, Option.or_assoc,
      merged_field (·.maxAttempts) fun _ _ => rfl]
  · simp [uncheckedSpec, QueueContract.source, QueueCronOptions.source, Option.or_assoc,
      merged_field (·.priority) fun _ _ => rfl]
  · simp [uncheckedSpec, QueueContract.source, QueueCronOptions.source, Option.or_assoc,
      merged_field (·.flags) fun _ _ => rfl]
  · simp [uncheckedSpec, QueueContract.source, QueueCronOptions.source, Option.or_assoc,
      merged_field (·.queueName) fun _ _ => rfl]
  · simp [uncheckedSpec, QueueContract.source, QueueCronOptions.source,
      merged_field (·.runAt) fun _ _ => rfl]
  · simp [uncheckedSpec, QueueContract.source, QueueCronOptions.source, Option.or_assoc,
      merged_field (·.jobKey) fun _ _ => rfl]
  · simp [uncheckedSpec, QueueContract.source, QueueCronOptions.source, Option.or_assoc,
      merged_field (·.jobKeyMode) fun _ _ => rfl]
  · simp [uncheckedSpec, QueueContract.source, QueueCronOptions.source,
      merged_field (·.idempotencyKey) fun _ _ => rfl]
  · refine ⟨ttl, ?_, rfl⟩
    rw [merged_field (·.idempotencyTtl) fun _ _ => rfl] at httl
    simpa [QueueContract.source, QueueCronOptions.source] using httl

end

/-! ## Single jobs -/

/-- A path's job of a queue has no input. -/
def Path.noInput (path : Path) (queue : QueueContract) : Bool :=
  path = .triggerCron || queue.registered.type = .cron

/-- The mode that the path fills in. -/
def Path.defaultJobKeyMode (client : Client) : Path → Option JobKeyMode
  | .enqueueInTransaction => client.transactionalJobKeyMode
  | _ => none

/-- The spec of a job is resolved from its sources and has its numbers in range. -/
def Client.Resolves (client : Client) (queue : QueueContract) (options : JobOptions) (noInput : Bool)
    (defaultJobKeyMode : Option JobKeyMode) (job : ResolvedJob) : Prop :=
  ∃ derived, (if noInput then derived = none else deriveOptions queue job.payload = .ok derived) ∧
    Precedence (sources queue options client.maxAttempts noInput derived) defaultJobKeyMode job.spec ∧
    job.spec.Ranged

section
variable {client : Client} {queue : QueueContract} {options : JobOptions} {name : String}
  {data : JsValue} {job : ResolvedJob} {spec : EnqueueSpec} {mode : Option JobKeyMode}

theorem find_ok (h : client.find name = .ok queue) : queue ∈ client.queues ∧ queue.name = name := by
  unfold Client.find at h
  cases hfind : client.queues.find? (·.name = name) with
  | none =>
    rw [hfind] at h
    cases h
  | some found =>
    rw [hfind] at h
    cases h
    exact ⟨List.mem_of_find?_eq_some hfind, by simpa using List.find?_some hfind⟩

@[simp] theorem EnqueueSpec.fill_none : spec.fill none = spec := by
  simp [fill]

theorem Precedence.fill {sources : List JobOptions} (h : Precedence sources none spec) :
    Precedence sources mode (spec.fill mode) := by
  have hmode := h.jobKeyMode
  constructor
  case jobKeyMode =>
    simp only [Option.bind_fun_none, Option.orElse_eq_orElse, Option.orElse_eq_or, Option.or_none] at hmode
    simp [EnqueueSpec.fill, hmode]
  · exact h.maxAttempts
  · exact h.priority
  · exact h.flags
  · exact h.queueName
  · exact h.runAt
  · exact h.jobKey
  · exact h.idempotencyKey
  · exact h.idempotencyTtl

theorem EnqueueSpec.Ranged.fill (h : spec.Ranged) : (spec.fill mode).Ranged := by
  exact ⟨h.maxAttempts, h.priority⟩

theorem prepareInput_ok {index : Option ℕ} {payload : Option Json} {derived : Option JobOptions}
    (h : client.prepareInput queue data options index = .ok (payload, derived)) :
    deriveOptions queue payload = .ok derived := by
  obtain ⟨stored, -, h⟩ := Registry.bind_eq_ok.mp h
  obtain ⟨options, hderive, h⟩ := Registry.bind_eq_ok.mp h
  cases h
  exact hderive

theorem resolveOne_resolves {cron : Bool}
    (h : client.resolveOne name data options cron mode = .ok job) :
    ∃ queue ∈ client.queues, queue.name = name ∧
      client.Resolves queue options (cron || queue.registered.type = .cron) mode job := by
  obtain ⟨queue, hfind, h⟩ := Registry.bind_eq_ok.mp h
  refine ⟨queue, (find_ok hfind).1, (find_ok hfind).2, ?_⟩
  split at h
  · cases h
  · obtain ⟨⟨payload, derived⟩, hinput, h⟩ := Registry.bind_eq_ok.mp h
    obtain ⟨spec, hspec, h⟩ := Registry.bind_eq_ok.mp h
    cases h
    obtain ⟨hprecedence, hranged⟩ := precedence_of_ok hspec
    refine ⟨derived, ?_, hprecedence.fill, hranged.fill⟩
    unfold Client.input at hinput
    split at hinput
    · cases hinput
      rw [if_pos ‹_›]
    · rw [if_neg ‹_›]
      exact prepareInput_ok hinput

/-- A default mode only fills the gap: it neither rejects a job nor changes another field. -/
theorem resolveOne_fill {cron : Bool} : client.resolveOne name data options cron mode =
    (client.resolveOne name data options cron none).map fun job =>
      { job with spec := job.spec.fill mode } := by
  unfold Client.resolveOne
  cases client.find name with
  | error error => rfl
  | ok queue =>
    simp only [bind, Except.bind]
    split
    · rfl
    · cases client.input queue data options (cron || queue.registered.type = .cron) with
      | error error => rfl
      | ok input =>
        cases hspec : resolveEnqueueSpec queue options client.maxAttempts
            (cron || queue.registered.type = .cron) input.2 with
        | error error => simp [hspec, Except.map]
        | ok spec => simp [hspec, Except.map, pure, Except.pure]

/-- The index of an item is in the errors only. -/
theorem prepare_index {index : ℕ} {payload : Option Json} :
    client.prepare queue data options (some index) = .ok payload ↔
      client.prepare queue data options none = .ok payload := by
  have hparse (value : JsValue) (parsed : Option Unit) :
      queue.parseQueuePayload value (some index) = .ok parsed ↔
        queue.parseQueuePayload value none = .ok parsed := by
    unfold QueueContract.parseQueuePayload ChildQueue.parseQueuePayload
    cases queue.inputSchema with
    | none => rfl
    | some schema => cases hschema : schema value <;> simp [hschema]
  unfold Client.prepare
  simp only [Registry.bind_eq_ok]
  apply exists_congr
  intro wire
  split
  · simp only [Registry.bind_eq_ok, hparse]
  · rfl

theorem resolveItem_ok_iff (index : ℕ) (hfind : client.find name = .ok queue)
    (hinput : queue.inputSchema.isSome) :
    client.resolveItem queue options index data = .ok job ↔
      client.enqueue .createJob name data options = .ok job := by
  obtain ⟨-, rfl⟩ := find_ok hfind
  have htype : queue.registered.type ≠ .cron := by
    simp [Registry.QueueContract.type, QueueContract.registered, hinput]
    split <;> simp
  have hprepare {input : Option Json × Option JobOptions} :
      client.prepareInput queue data options (some index) = .ok input ↔
        client.prepareInput queue data options none = .ok input := by
    unfold Client.prepareInput
    simp only [Registry.bind_eq_ok, prepare_index]
  have hone : client.enqueue .createJob queue.name data options =
      (client.prepareInput queue data options none >>= fun input =>
        resolveEnqueueSpec queue options client.maxAttempts false input.2 >>= fun spec =>
          .ok ⟨queue.name, input.1, spec⟩) := by
    unfold Client.enqueue Client.resolveOne Client.input
    rw [hfind]
    simp [htype, bind, Except.bind, pure, Except.pure]
  rw [hone]
  simp only [Client.resolveItem, Registry.bind_eq_ok, hprepare]
  rfl

end

/-! ## Batches -/

/-- What the loop asks of its keyed items, for the mode that the batch ends up with. -/
structure SeenKeys.Fits (seen : SeenKeys) (jobs : List ResolvedJob) (keyMode : Option JobKeyMode) :
    Prop where
  nodup : (jobs.filterMap (·.spec.jobKey)).Nodup
  fresh : ∀ key ∈ jobs.filterMap (·.spec.jobKey), seen.keys.lookup key = none
  mode : ∀ job ∈ jobs, ∀ mode ∈ job.spec.keyMode, keyMode = some mode ∧ mode ≠ .unsafeDedupe
  seen : ∀ mode ∈ seen.keyMode, keyMode = some mode

/-- The keys of the jobs are distinct and have one mode, which `add_jobs` knows. -/
def Batchable (jobs : List ResolvedJob) : Prop :=
  (jobs.filterMap (·.spec.jobKey)).Nodup ∧
    ∃ mode, mode ≠ .unsafeDedupe ∧ ∀ job ∈ jobs, ∀ m ∈ job.spec.keyMode, m = mode

namespace SeenKeys

variable {seen : SeenKeys} {job : ResolvedJob} {jobs : List ResolvedJob} {keyMode : Option JobKeyMode}

theorem fits_nil : seen.Fits [] keyMode ↔ ∀ mode ∈ seen.keyMode, keyMode = some mode := by
  constructor
  · intro h
    exact h.seen
  · intro h
    exact ⟨by simp, by simp, by simp, h⟩

/-- The check of one item takes its key and its mode off what the others may have. -/
theorem fits_cons (index : ℕ) : seen.Fits (job :: jobs) keyMode ↔
    ∃ seen', seen.check index job.spec = .ok seen' ∧ seen'.Fits jobs keyMode := by
  cases hkey : job.spec.jobKey with
  | none =>
    have hcheck : seen.check index job.spec = .ok seen := by
      simp [check, hkey]
    have hmode : job.spec.keyMode = none := by
      simp [EnqueueSpec.keyMode, hkey]
    rw [hcheck]
    constructor
    · intro h
      refine ⟨seen, rfl, ?_, ?_, ?_, h.seen⟩
      · simpa [hkey] using h.nodup
      · simpa [hkey] using h.fresh
      · intro job hjob
        exact h.mode job (List.mem_cons_of_mem _ hjob)
    · rintro ⟨seen', hseen, h⟩
      cases hseen
      refine ⟨?_, ?_, ?_, h.seen⟩
      · simpa [hkey] using h.nodup
      · simpa [hkey] using h.fresh
      · intro job' hjob'
        cases hjob' with
        | head =>
          rw [hmode]
          simp
        | tail _ hjob' => exact h.mode job' hjob'
  | some key =>
    have hmode : job.spec.keyMode = some (job.spec.jobKeyMode.getD .replace) := by
      simp [EnqueueSpec.keyMode, hkey]
    constructor
    · intro h
      obtain ⟨hkeyMode, hsafe⟩ := h.mode job List.mem_cons_self _ hmode
      have hnodup : key ∉ jobs.filterMap (·.spec.jobKey) ∧ (jobs.filterMap (·.spec.jobKey)).Nodup := by
        simpa [hkey] using h.nodup
      have hfresh : seen.keys.lookup key = none := h.fresh key (by simp [hkey])
      have hseen : ¬seen.keyMode.any (· ≠ job.spec.jobKeyMode.getD .replace) := by
        cases hmode' : seen.keyMode with
        | none => simp
        | some mode =>
          have heq := h.seen mode hmode'
          rw [hkeyMode] at heq
          cases heq
          simp
      refine ⟨⟨(key, index) :: seen.keys, some (job.spec.jobKeyMode.getD .replace)⟩, ?_, ?_⟩
      · simp only [check, hkey, if_neg (not_or.mpr ⟨hsafe, hseen⟩), hfresh]
      · refine ⟨hnodup.2, ?_, ?_, ?_⟩
        · intro key' hkey'
          have hne : (key' == key) = false := by
            rw [beq_eq_false_iff_ne]
            rintro rfl
            exact hnodup.1 hkey'
          rw [List.lookup_cons, hne]
          exact h.fresh key' (by simpa [hkey] using Or.inr hkey')
        · intro job' hjob'
          exact h.mode job' (List.mem_cons_of_mem _ hjob')
        · intro mode hmode'
          cases hmode'
          exact hkeyMode
    · rintro ⟨seen', hcheck, h⟩
      simp only [check, hkey] at hcheck
      split at hcheck
      · cases hcheck
      · rename_i hsafe
        obtain ⟨hsafe, hseen⟩ := not_or.mp hsafe
        split at hcheck
        · cases hcheck
        · rename_i hfresh
          cases hcheck
          have hkeyMode := h.seen _ rfl
          have hlookup (key' : String) (hkey' : key' ∈ jobs.filterMap (·.spec.jobKey)) :
              key' ≠ key ∧ seen.keys.lookup key' = none := by
            have hnone := h.fresh key' hkey'
            rw [List.lookup_cons] at hnone
            split at hnone
            · cases hnone
            · rename_i hne
              exact ⟨beq_eq_false_iff_ne.mp hne, hnone⟩
          refine ⟨?_, ?_, ?_, ?_⟩
          · simp only [List.filterMap_cons, hkey, List.nodup_cons]
            exact ⟨fun hmem => (hlookup key hmem).1 rfl, h.nodup⟩
          · intro key' hkey'
            simp only [List.filterMap_cons, hkey] at hkey'
            cases hkey' with
            | head => exact hfresh
            | tail _ hkey' => exact (hlookup key' hkey').2
          · intro job' hjob' mode hmode'
            cases hjob' with
            | head =>
              rw [hmode] at hmode'
              cases hmode'
              exact ⟨hkeyMode, hsafe⟩
            | tail _ hjob' => exact h.mode job' hjob' mode hmode'
          · intro mode hmode'
            rw [hmode'] at hseen
            have heq : mode = job.spec.jobKeyMode.getD .replace := by
              simpa using hseen
            rw [hkeyMode, heq]

end SeenKeys

section
variable {client : Client} {queue : QueueContract} {options : JobOptions} {name : String}
  {data : List JsValue} {singles : List ResolvedJob} {keyMode : Option JobKeyMode}

/-- The items that the loop resolves are those of single jobs, and their keys fit together. -/
theorem resolveItems_ok (hfind : client.find name = .ok queue) (hinput : queue.inputSchema.isSome)
    {index : ℕ} {seen : SeenKeys} {items : List ResolvedJob}
    (h : client.resolveItems queue options index seen data = .ok (items, keyMode)) :
    ∃ singles, List.Forall₂ (fun item single => client.enqueue .createJob name item options = .ok single)
        data singles ∧ items = singles.map ResolvedJob.withoutMode ∧ seen.Fits singles keyMode := by
  induction data generalizing index seen items with
  | nil =>
    cases h
    refine ⟨[], .nil, rfl, SeenKeys.fits_nil.mpr ?_⟩
    intro mode hmode
    exact hmode
  | cons item data ih =>
    obtain ⟨single, hsingle, h⟩ := Registry.bind_eq_ok.mp h
    obtain ⟨seen', hcheck, h⟩ := Registry.bind_eq_ok.mp h
    obtain ⟨rest, hrest, h⟩ := Registry.bind_eq_ok.mp h
    cases h
    obtain ⟨singles, hdata, hitems, hfits⟩ := ih hrest
    refine ⟨single :: singles, .cons ?_ hdata, ?_, ?_⟩
    · exact (resolveItem_ok_iff index hfind hinput).mp hsingle
    · rw [List.map_cons, hitems]
    · exact (SeenKeys.fits_cons index).mpr ⟨seen', hcheck, hfits⟩

/-- If every item is accepted on its own and their keys fit together, the loop accepts them. -/
theorem exists_resolveItems (index : ℕ) (hfind : client.find name = .ok queue)
    (hinput : queue.inputSchema.isSome) {seen : SeenKeys}
    (hdata : List.Forall₂ (fun item single => client.enqueue .createJob name item options = .ok single)
      data singles) (hfits : seen.Fits singles keyMode) :
    ∃ items, client.resolveItems queue options index seen data = .ok items := by
  induction hdata generalizing index seen with
  | nil => exact ⟨_, rfl⟩
  | @cons item single data singles hsingle _ ih =>
    obtain ⟨seen', hcheck, hfits⟩ := (SeenKeys.fits_cons index).mp hfits
    obtain ⟨rest, hrest⟩ := @ih (index + 1) seen' hfits
    refine ⟨(single.withoutMode :: rest.1, rest.2), ?_⟩
    apply Registry.bind_eq_ok.mpr
    refine ⟨single, (resolveItem_ok_iff index hfind hinput).mpr hsingle, ?_⟩
    apply Registry.bind_eq_ok.mpr
    refine ⟨seen', hcheck, ?_⟩
    exact Registry.bind_eq_ok.mpr ⟨rest, hrest, rfl⟩

theorem SeenKeys.Fits.batchable {seen : SeenKeys} (h : seen.Fits singles keyMode) :
    Batchable singles := by
  refine ⟨h.nodup, ?_⟩
  by_cases hkeyed : ∃ job ∈ singles, job.spec.keyMode.isSome
  · obtain ⟨job, hjob, hmode⟩ := hkeyed
    obtain ⟨mode, hmode⟩ := Option.isSome_iff_exists.mp hmode
    obtain ⟨hkeyMode, hsafe⟩ := h.mode job hjob mode hmode
    refine ⟨mode, hsafe, fun job' hjob' mode' hmode' => ?_⟩
    have hsame := (h.mode job' hjob' mode' hmode').1
    rw [hkeyMode] at hsame
    exact (Option.some.inj hsame).symm
  · refine ⟨.replace, by simp, fun job hjob mode hmode => ?_⟩
    exact absurd ⟨job, hjob, Option.isSome_of_mem hmode⟩ hkeyed

theorem Batchable.fits (h : Batchable singles) :
    ∃ keyMode, SeenKeys.Fits ⟨[], none⟩ singles keyMode := by
  obtain ⟨hnodup, mode, hsafe, hmode⟩ := h
  refine ⟨some mode, hnodup, by simp, fun job hjob m hm => ?_, by simp⟩
  obtain rfl := hmode job hjob m hm
  exact ⟨rfl, hsafe⟩

/-- Explicit options that are accepted with derived ones are accepted without them. -/
theorem exists_explicitSpec {explicit : JobOptions} {defaultMaxAttempts : JsNumber}
    {derived : Option JobOptions} {spec spec' : EnqueueSpec}
    (hdefault : resolveEnqueueSpec queue {} defaultMaxAttempts false none = .ok spec)
    (h : resolveEnqueueSpec queue explicit defaultMaxAttempts false derived = .ok spec') :
    ∃ spec, resolveEnqueueSpec queue explicit defaultMaxAttempts false none = .ok spec := by
  obtain ⟨_, -, hqueue, rfl⟩ := resolveEnqueueSpec_ok_iff.mp hdefault
  obtain ⟨ttl, hoptions, hranged, rfl⟩ := resolveEnqueueSpec_ok_iff.mp h
  obtain ⟨hrunAt, hkey, httl⟩ := checkOptions_ok_iff.mp hoptions
  rw [merged_field (·.runAt) fun _ _ => rfl] at hrunAt
  rw [merged_field (·.idempotencyKey) fun _ _ => rfl] at hkey
  rw [merged_field (·.idempotencyTtl) fun _ _ => rfl] at httl
  have hcheck : ∃ ttl, checkOptions explicit = .ok ttl := by
    have httl : ∃ ttl, resolveIdempotencyTtl explicit.idempotencyTtl = .ok ttl := by
      cases hexplicit : explicit.idempotencyTtl with
      | none => exact ⟨_, rfl⟩
      | some value => exact ⟨ttl, by simpa [hexplicit] using httl⟩
    obtain ⟨ttl, httl⟩ := httl
    refine ⟨ttl, checkOptions_ok_iff.mpr ⟨fun runAt hmem => ?_, fun hempty => ?_, httl⟩⟩
    · exact hrunAt runAt (by simp_all)
    · exact hkey (by simp [hempty])
  obtain ⟨ttl, hcheck⟩ := hcheck
  refine ⟨_, resolveEnqueueSpec_ok_iff.mpr ⟨ttl, hcheck, ⟨?_, ?_⟩, rfl⟩⟩
  · cases hexplicit : explicit.maxAttempts with
    | none => simpa [uncheckedSpec, merged, hexplicit] using hqueue.maxAttempts
    | some value =>
      have hmerged : (merged explicit derived).maxAttempts = some value := by
        rw [merged_field (·.maxAttempts) fun _ _ => rfl, hexplicit]
        rfl
      have hrange := hranged.maxAttempts
      simp only [uncheckedSpec, hmerged] at hrange
      simpa [uncheckedSpec, merged, hexplicit] using hrange
  · cases hexplicit : explicit.priority with
    | none => simpa [uncheckedSpec, merged, hexplicit] using hqueue.priority
    | some value =>
      have hmerged : (merged explicit derived).priority = some value := by
        rw [merged_field (·.priority) fun _ _ => rfl, hexplicit]
        rfl
      have hrange := hranged.priority
      simp only [uncheckedSpec, hmerged] at hrange
      simpa [uncheckedSpec, merged, hexplicit] using hrange

/-- The mode of an item's key survives as the flag of its batch. -/
theorem keyMode_withoutMode {single : ResolvedJob} {specs : List ResolvedJob} {idempotent : Bool}
    (h : ∀ mode ∈ single.spec.keyMode, keyMode = some mode ∧ mode ≠ .unsafeDedupe) :
    ResolvedJobs.keyMode ⟨specs, keyMode = some .preserveRunAt, idempotent⟩ single.withoutMode.spec =
      single.spec.keyMode := by
  cases hkey : single.spec.jobKey with
  | none =>
    simp [ResolvedJobs.keyMode, EnqueueSpec.keyMode, withBatchKeyMode, ResolvedJob.withoutMode, hkey]
  | some key =>
    have hmode : single.spec.keyMode = some (single.spec.jobKeyMode.getD .replace) := by
      simp [EnqueueSpec.keyMode, hkey]
    obtain ⟨hkeyMode, hsafe⟩ := h _ hmode
    rw [hkeyMode, hmode]
    generalize single.spec.jobKeyMode.getD .replace = mode at hsafe
    cases mode <;> cases idempotent <;>
      simp_all [ResolvedJobs.keyMode, EnqueueSpec.keyMode, withBatchKeyMode, ResolvedJob.withoutMode]

theorem resolveMany_ok {jobs : ResolvedJobs} (h : client.resolveMany name data options = .ok jobs) :
    ∃ singles, List.Forall₂ (fun item single => client.enqueue .createJob name item options = .ok single)
        data singles ∧ jobs.specs = singles.map ResolvedJob.withoutMode ∧ Batchable singles ∧
      ∀ single ∈ singles, jobs.keyMode single.withoutMode.spec = single.spec.keyMode := by
  obtain ⟨queue, hfind, h⟩ := Registry.bind_eq_ok.mp h
  split at h
  · cases h
  · rename_i hinput
    split at h
    · cases h
    · obtain ⟨_, -, h⟩ := Registry.bind_eq_ok.mp h
      obtain ⟨items, hitems, h⟩ := Registry.bind_eq_ok.mp h
      cases h
      have hinput : queue.inputSchema.isSome := by
        simpa [Option.isSome_iff_ne_none] using hinput
      obtain ⟨singles, hdata, hspecs, hfits⟩ := resolveItems_ok hfind hinput hitems
      refine ⟨singles, hdata, hspecs, hfits.batchable, fun single hsingle => ?_⟩
      exact keyMode_withoutMode (hfits.mode single hsingle)

/-- The queue has input, and its call options leave the keys to the items. -/
structure BatchOptions (client : Client) (name : String) (options : JobOptions) : Prop where
  input : ∃ queue ∈ client.queues, queue.name = name ∧ queue.inputSchema.isSome
  jobKeyMode : options.jobKeyMode = none
  jobKey : options.jobKey = none
  idempotencyKey : options.idempotencyKey = none

private theorem forM_ok {α ε : Type} {check : α → Except ε Unit} :
    ∀ {values : List α}, values.forM check = .ok () → ∀ value ∈ values, check value = .ok ()
  | [], _, _, hmem => by cases hmem
  | value :: values, h, value', hmem => by
    obtain ⟨_, hvalue, h⟩ := Registry.bind_eq_ok.mp h
    cases hmem with
    | head => exact hvalue
    | tail _ hmem => exact forM_ok h value' hmem

/-- Names are unique, and the queues and their cron options are accepted without a call. -/
structure Client.Bound (client : Client) : Prop where
  find : ∀ queue ∈ client.queues, client.find queue.name = .ok queue
  scheduled : ∀ queue ∈ client.queues, queue.inputSchema = none → queue.cron.isSome
  checked : ∀ queue ∈ client.queues,
    ∃ spec, resolveEnqueueSpec queue {} client.maxAttempts false none = .ok spec

theorem bound_of_bind (h : client.bindCreateJob = .ok ()) : client.Bound := by
  obtain ⟨_, hnames, h⟩ := Registry.bind_eq_ok.mp h
  obtain ⟨_, -, h⟩ := Registry.bind_eq_ok.mp h
  constructor
  · intro queue hqueue
    have hunique : Registry.assertUniqueQueueNames (client.queues.map (·.registered)) = .ok () := by
      cases hassert : Registry.assertUniqueQueueNames (client.queues.map (·.registered)) with
      | ok => rfl
      | error error =>
        rw [hassert] at hnames
        cases hnames
    have hnodup : (client.queues.map (·.name)).Nodup := by
      have htasks := (Registry.assertUniqueQueueNames_iff.mp hunique).2
      rw [List.nodup_flatMap] at htasks
      have hpairwise := List.pairwise_map.mp htasks.2
      refine List.pairwise_map.mpr (hpairwise.imp fun hdisjoint heq => ?_)
      apply hdisjoint (Registry.QueueContract.mem_taskNames.mpr (.inl rfl))
      exact Registry.QueueContract.mem_taskNames.mpr (.inl heq)
    unfold Client.find
    cases hfind : client.queues.find? (·.name = queue.name) with
    | none =>
      have hne := List.find?_eq_none.mp hfind queue hqueue
      simp at hne
    | some found =>
      have hname : found.name = queue.name := by
        simpa using List.find?_some hfind
      have hfound := List.mem_of_find?_eq_some hfind
      rw [List.inj_on_of_nodup_map hnodup hfound hqueue hname]
  · intro queue hqueue hinput
    have hcheck := forM_ok h queue hqueue
    unfold Client.checkQueue at hcheck
    split at hcheck
    · cases hcheck
    · simp_all [Option.isSome_iff_ne_none]
  · intro queue hqueue
    have hcheck := forM_ok h queue hqueue
    unfold Client.checkQueue at hcheck
    split at hcheck
    · cases hcheck
    · obtain ⟨spec, hspec, -⟩ := Registry.bind_eq_ok.mp hcheck
      exact ⟨spec, hspec⟩

/-- A batch is accepted exactly if each item is on its own and the keys of the items fit together. -/
theorem resolveMany_accepts_iff (hbound : client.Bound) (hdata : data ≠ []) :
    (∃ jobs, client.resolveMany name data options = .ok jobs) ↔
      BatchOptions client name options ∧ ∃ singles, Batchable singles ∧
        List.Forall₂ (fun item single => client.enqueue .createJob name item options = .ok single)
          data singles := by
  constructor
  · intro h
    obtain ⟨jobs, h⟩ := h
    obtain ⟨singles, hsingles, -, hbatchable, -⟩ := resolveMany_ok h
    refine ⟨?_, singles, hbatchable, hsingles⟩
    obtain ⟨queue, hfind, h⟩ := Registry.bind_eq_ok.mp h
    split at h
    · cases h
    · rename_i hinput
      split at h
      · cases h
      · rename_i hkeys
        refine ⟨⟨queue, (find_ok hfind).1, (find_ok hfind).2, ?_⟩, ?_, ?_, ?_⟩
        all_goals simp_all [Option.isSome_iff_ne_none]
  · intro h
    obtain ⟨hoptions, singles, hbatchable, hsingles⟩ := h
    obtain ⟨queue, hqueue, rfl, hinput⟩ := hoptions.input
    have hfind := hbound.find queue hqueue
    obtain ⟨keyMode, hfits⟩ := hbatchable.fits
    obtain ⟨items, hitems⟩ := exists_resolveItems 0 hfind hinput hsingles hfits
    obtain ⟨default, hdefault⟩ := hbound.checked queue hqueue
    have hexplicit : ∃ spec,
        resolveEnqueueSpec queue options client.maxAttempts false none = .ok spec := by
      cases hsingles with
      | nil => exact absurd rfl hdata
      | cons hsingle _ =>
        obtain ⟨input, -, h⟩ := Registry.bind_eq_ok.mp
          ((resolveItem_ok_iff 0 hfind hinput).mpr hsingle)
        obtain ⟨spec, hspec, -⟩ := Registry.bind_eq_ok.mp h
        exact exists_explicitSpec hdefault hspec
    obtain ⟨spec, hspec⟩ := hexplicit
    refine ⟨⟨items.1, items.2 = some .preserveRunAt, items.1.any (·.spec.idempotencyKey.isSome)⟩, ?_⟩
    apply Registry.bind_eq_ok.mpr
    refine ⟨queue, hfind, ?_⟩
    rw [if_neg (by simpa [Option.isSome_iff_ne_none] using hinput),
      if_neg (by simp [hoptions.jobKeyMode, hoptions.jobKey, hoptions.idempotencyKey])]
    apply Registry.bind_eq_ok.mpr
    refine ⟨spec, hspec, ?_⟩
    exact Registry.bind_eq_ok.mpr ⟨items, hitems, rfl⟩

end

/-! ## Cron jobs -/

/-- The fields that a native cron item and a spec both carry. -/
structure CronItemOptions.Agrees (options : CronItemOptions) (spec : EnqueueSpec) : Prop where
  maxAttempts : options.maxAttempts = spec.maxAttempts
  queueName : options.queueName = spec.queueName
  priority : options.priority = spec.priority
  jobKey : options.jobKey = spec.jobKey
  jobKeyMode : options.jobKeyMode = spec.jobKeyMode

section
variable {client : Client} {queue : QueueContract} {options : JobOptions} {data : JsValue}

theorem triggerCron_eq (hfind : client.find queue.name = .ok queue) (hcron : queue.cron.isSome) :
    client.enqueue .triggerCron queue.name data options =
      (resolveEnqueueSpec queue options client.maxAttempts true none).map fun spec =>
        ⟨queue.registered.cronTask, none, spec⟩ := by
  have hnone : queue.cron.isNone = false := by
    simpa using hcron
  have htask : queue.registered.cronTask = if queue.registered.type = .cronInit then
      queue.name ++ Registry.cronInitSuffix else queue.name := rfl
  unfold Client.enqueue Client.resolveOne Client.input
  rw [hfind, htask]
  cases hspec : resolveEnqueueSpec queue options client.maxAttempts true none <;>
    simp [hspec, hnone, bind, Except.bind, pure, Except.pure, Except.map]

/-- Every job of a queue without input is a cron job. -/
theorem createJob_of_cron (hfind : client.find queue.name = .ok queue) (hcron : queue.cron.isSome)
    (hinput : queue.inputSchema = none) :
    client.enqueue .createJob queue.name data options =
      client.enqueue .triggerCron queue.name data options := by
  have htype : queue.registered.type = .cron := by
    simp [Registry.QueueContract.type, QueueContract.registered, hcron, hinput]
  have htask : queue.registered.cronTask = queue.name := by
    rw [Registry.QueueContract.cronTask, htype]
    rfl
  rw [triggerCron_eq hfind hcron, htask]
  unfold Client.enqueue Client.resolveOne Client.input
  rw [hfind]
  cases hspec : resolveEnqueueSpec queue options client.maxAttempts true none <;>
    simp [hspec, htype, bind, Except.bind, pure, Except.pure, Except.map]

theorem cronItems_agree {items : List CronItem} (hfind : client.find queue.name = .ok queue)
    (hcron : queue.cron.isSome) (h : cronItems client.maxAttempts queue = .ok items) :
    ∃ job, client.enqueue .triggerCron queue.name data {} = .ok job ∧
      ∀ item ∈ items, item.task = job.task ∧ item.options.Agrees job.spec := by
  obtain ⟨spec, hspec, h⟩ := Registry.bind_eq_ok.mp h
  refine ⟨⟨queue.registered.cronTask, none, spec⟩, ?_, fun item hitem => ?_⟩
  · rw [triggerCron_eq hfind hcron, hspec]
    rfl
  · cases h
    obtain ⟨schedule, -, rfl⟩ := List.mem_map.mp hitem
    obtain ⟨ttl, -, -, rfl⟩ := resolveEnqueueSpec_ok_iff.mp hspec
    refine ⟨rfl, ?_⟩
    constructor <;> rfl

end

/-! ## The paths agree -/

/-- Every path resolves the same spec from the same sources. -/
structure Client.Uniform (client : Client) : Prop where
  single : ∀ path name data options job, client.enqueue path name data options = .ok job →
    ∃ queue ∈ client.queues, queue.name = name ∧
      client.Resolves queue options (path.noInput queue) (path.defaultJobKeyMode client) job
  prepared : ∀ name data options,
    client.enqueue .prepareJob name data options = client.enqueue .createJob name data options
  transaction : ∀ name data options, client.enqueue .enqueueInTransaction name data options =
    (client.enqueue .createJob name data options).map fun job =>
      { job with spec := job.spec.fill client.transactionalJobKeyMode }
  /-- A queue without input has cron jobs only. -/
  cronJob : ∀ queue ∈ client.queues, queue.inputSchema = none → ∀ data options,
    client.enqueue .createJob queue.name data options =
      client.enqueue .triggerCron queue.name data options
  batch : ∀ name data options jobs, client.resolveMany name data options = .ok jobs →
    ∃ singles, List.Forall₂ (fun item single => client.enqueue .createJob name item options = .ok single)
        data singles ∧ jobs.specs = singles.map ResolvedJob.withoutMode ∧ Batchable singles ∧
      ∀ single ∈ singles, jobs.keyMode single.withoutMode.spec = single.spec.keyMode
  accepted : ∀ name data options, data ≠ [] →
    ((∃ jobs, client.resolveMany name data options = .ok jobs) ↔
      BatchOptions client name options ∧ ∃ singles, Batchable singles ∧
        List.Forall₂ (fun item single => client.enqueue .createJob name item options = .ok single)
          data singles)
  cronItem : ∀ items, buildCronItems client.queues client.maxAttempts = .ok items → ∀ item ∈ items,
    ∃ queue ∈ client.queues, ∃ job, client.enqueue .triggerCron queue.name .undefined {} = .ok job ∧
      item.task = job.task ∧ item.options.Agrees job.spec

theorem options_uniform {client : Client} (h : client.bindCreateJob = .ok ()) : client.Uniform := by
  have hbound := bound_of_bind h
  constructor
  case single =>
    intro path name data options job hjob
    cases path with
    | triggerCron => exact resolveOne_resolves hjob
    | createJob | prepareJob | enqueueInTransaction =>
      obtain ⟨queue, hqueue, hname, hresolves⟩ := resolveOne_resolves hjob
      exact ⟨queue, hqueue, hname, by simpa [Path.noInput, Path.defaultJobKeyMode] using hresolves⟩
  case prepared =>
    intro name data options
    rfl
  case transaction =>
    intro name data options
    exact resolveOne_fill
  case cronJob =>
    intro queue hqueue hinput data options
    exact createJob_of_cron (hbound.find queue hqueue) (hbound.scheduled queue hqueue hinput) hinput
  case batch =>
    intro name data options jobs hjobs
    exact resolveMany_ok hjobs
  case accepted =>
    intro name data options hdata
    exact resolveMany_accepts_iff hbound hdata
  case cronItem =>
    intro items hitems item hitem
    obtain ⟨perQueue, hmap, hitems⟩ := Registry.bind_eq_ok.mp hitems
    cases hitems
    obtain ⟨ofQueue, hofQueue, hitem⟩ := List.mem_flatten.mp hitem
    obtain ⟨queue, hqueue, hcron⟩ := Registry.exists_left (Registry.forall₂_of_mapM hmap) hofQueue
    obtain ⟨hqueue, hscheduled⟩ := List.mem_filter.mp hqueue
    have hisSome : queue.cron.isSome := by
      unfold Registry.QueueContract.scheduled QueueContract.registered at hscheduled
      cases hschedule : queue.cron with
      | none => simp [hschedule] at hscheduled
      | some schedule => rfl
    obtain ⟨job, hjob, hall⟩ := cronItems_agree (hbound.find queue hqueue) hisSome hcron
    exact ⟨queue, hqueue, job, hjob, hall item hitem⟩

namespace Trace

/-- A queue that only a schedule fires. -/
def report : QueueContract where
  name := "report"
  inputSchema := none
  cron := some (.pattern "0 * * * *")
  cronOptions := some { priority := some (.finite 9) }
  maxAttempts := none
  priority := some (.finite 1)
  flags := none
  serial := none
  deriveJobOptions := none

/-- A queue whose jobs share a key. -/
def mail : QueueContract where
  name := "mail"
  inputSchema := some fun _ => .ok ()
  cron := none
  cronOptions := none
  maxAttempts := none
  priority := none
  flags := none
  serial := none
  deriveJobOptions := some fun _ =>
    .ok (.object { jobKey := .string "mail", jobKeyMode := .string "unsafe_dedupe" })

def client : Client where
  queues := [report, mail]
  validateOnEnqueue := none
  defaultMaxAttempts := none
  toJsonCompat := none
  transactionalJobKeyMode := some .preserveRunAt

end Trace

theorem options_uniform_report : Trace.client.bindCreateJob = .ok () ∧ Trace.client.Uniform := by
  have h : Trace.client.bindCreateJob = .ok () := by rfl
  exact ⟨h, options_uniform h⟩

/--
A job that createJob adds to a cron queue has the cron option and not the queue's default, a
TTL without a key is dropped, and a derived mode of a single job is refused in a batch.
-/
theorem options_not_uniform :
    (Trace.client.enqueue .createJob "report" .undefined {}).map (·.spec.priority) =
        .ok (some (.finite 9)) ∧
      (sources Trace.report {} Trace.client.maxAttempts false none).findSome? (·.priority) =
        some (.finite 1) ∧
      (Trace.client.enqueue .createJob "report" .undefined
          { idempotencyTtl := some (.string "2h") }).map (·.spec.idempotencyTtl) = .ok none ∧
      (Trace.client.enqueue .createJob "mail" .null {}).map (·.spec.jobKeyMode) =
        .ok (some .unsafeDedupe) ∧
      (Trace.client.resolveMany "mail" [.null] {}).isOk = false := by
  refine ⟨rfl, rfl, rfl, rfl, rfl⟩

end BetterGraphileWorker.EnqueueOptions
