-- SUMMARY: Queue contracts and their task identifiers: the registry checks, the task lists of a pool and what enqueues into them.
import Mathlib.Data.List.Nodup
import BetterGraphileWorker.Library.Table
import BetterGraphileWorker.Data.Payload
import BetterGraphileWorker.Database.Graphile

/-!
# Registry

A queue is processed under its name, and initialised under a second identifier if it has
both a schedule and an input. The check of a registry, the task lists of the workers and
the producers each generate these identifiers.
-/

namespace BetterGraphileWorker.Registry

/-- `CRON_INIT_SUFFIX`. -/
def cronInitSuffix : String := "_cron-init"

inductive CronSchedule where
  | pattern (text : String)
  | patterns (texts : List String)
  /-- A function; it is told from others by a number. -/
  | matcher (id : ℕ)

structure QueueCronOptions where
  identifier : Option String
  backfillPeriod : Option ℤ
  maxAttempts : Option ℤ
  queueName : Option String
  priority : Option ℤ
  jobKey : Option String
  jobKeyMode : Option JobKeyMode

/-- `serial: true` or a lane. -/
inductive Serial where
  | own
  | lane (queueName : String)

structure QueueContract where
  name : String
  /-- It has an `inputSchema`. -/
  inputSchema : Bool
  cron : Option CronSchedule
  cronOptions : Option QueueCronOptions
  maxAttempts : Option ℤ
  priority : Option ℤ
  timeout : Option ℤ
  serial : Option Serial
  runner : Option String

inductive QueueType where
  | regular
  | cron
  | cronInit
deriving DecidableEq

namespace QueueContract

variable (queue : QueueContract)

/-- `getQueueType`. -/
def type : QueueType :=
  if queue.cron.isSome && queue.inputSchema then .cronInit
  else if queue.cron.isSome && !queue.inputSchema then .cron
  else .regular

def initName : String := queue.name ++ cronInitSuffix

/-- The identifiers generated for a queue. -/
def taskNames : List String :=
  if queue.type = .cronInit then [queue.name, queue.initName] else [queue.name]

end QueueContract

/-! ## Checking a registry -/

inductive RegistryError where
  | invalidName
  | duplicateQueue (name : String)
  | nameCollision (task : String)
  | missingProcessFn (name : String)
  | timeout (name : String)
  | missingInput (name : String)
  | missingInitFn (name : String)
  | strayInitFn (name : String)
  | emptyProcess
  | unknownProcess (name : String)
  | repeatedProcess (name : String)
  | defaultRunner (runner : String)
  | missingRunner (name : String)
  | unknownRunner (name runner : String)
  | unknownQueue (name : String) (available : List String)
  | cronBatch (name : String)
  | noSchedule (name : String)
  | integer (label : String) (least greatest : ℤ)
  | cronIdentifier (identifier : String)
deriving DecidableEq

def RegistryError.message : RegistryError → String
  | .invalidName =>
    "Queue names must be non-empty and cannot be \"then\" (reserved for promise assimilation)"
  | .duplicateQueue name => "Duplicate queue name \"" ++ name ++ "\""
  | .nameCollision task => "Queue task name \"" ++ task ++ "\" collides with another registered task"
  | .missingProcessFn name => "Queue \"" ++ name ++ "\" requires a processFn"
  | .timeout name => "Queue \"" ++ name ++ "\" timeout must be an integer between 1 and 2147483647"
  | .missingInput name => "Queue \"" ++ name ++ "\" requires an inputSchema or cron schedule"
  | .missingInitFn name => "Cron-init queue \"" ++ name ++ "\" requires an initFn"
  | .strayInitFn name => "initFn requires a cron schedule and inputSchema for \"" ++ name ++ "\""
  | .emptyProcess => "process must list at least one queue"
  | .unknownProcess name => "process lists unknown queue \"" ++ name ++ "\""
  | .repeatedProcess name => "process lists queue \"" ++ name ++ "\" twice"
  | .defaultRunner runner => "defaultRunner \"" ++ runner ++ "\" is not one of the runners"
  | .missingRunner name => "Queue \"" ++ name ++ "\" needs a runner, or the pool a defaultRunner"
  | .unknownRunner name runner => "Queue \"" ++ name ++ "\" uses unknown runner \"" ++ runner ++ "\""
  | .unknownQueue name [] => "Unknown queue \"" ++ name ++ "\". No queues are registered."
  | .unknownQueue name available =>
    "Unknown queue \"" ++ name ++ "\". Known queues: " ++ ", ".intercalate available
  | .cronBatch name =>
    "createJobs cannot enqueue cron queue \"" ++ name ++ "\"; use createJob or triggerCron"
  | .noSchedule name => "\"" ++ name ++ "\" is not a cron queue"
  | .integer label least greatest =>
    label ++ " must be an integer between " ++ toString least ++ " and " ++ toString greatest
  | .cronIdentifier identifier => "Duplicate cron identifier: " ++ identifier

/-- The loop of `assertUniqueQueueNames`, with its sets `names` and `taskNames`. -/
def checkQueueNames (names taskNames : List String) : List QueueContract → Except RegistryError Unit
  | [] => .ok ()
  | queue :: queues =>
    if queue.name = "" ∨ queue.name = "then" then .error .invalidName
    else if queue.name ∈ names then .error (.duplicateQueue queue.name)
    else
      let names := queue.name :: names
      if queue.name ∈ taskNames then .error (.nameCollision queue.name)
      else
        let taskNames := queue.name :: taskNames
        if queue.cron.isSome && queue.inputSchema then
          if queue.initName ∈ names ∨ queue.initName ∈ taskNames then
            .error (.nameCollision queue.initName)
          else checkQueueNames names (queue.initName :: taskNames) queues
        else checkQueueNames names taskNames queues

def assertUniqueQueueNames (queues : List QueueContract) : Except RegistryError Unit :=
  checkQueueNames [] [] queues

/-- The handlers of a queue; its `processFn` is one of them. -/
structure QueueHandler where
  /-- It has an `initFn`. -/
  initFn : Bool

structure NormalizedQueue where
  contract : QueueContract
  initFn : Bool

/-- One queue of `normalizeWorkerQueues`. -/
def normalizeQueue (handlers : QueueContract → Option QueueHandler) (queue : QueueContract) :
    Except RegistryError NormalizedQueue :=
  match handlers queue with
  | none => .error (.missingProcessFn queue.name)
  | some handler =>
    if queue.timeout.any fun timeout => timeout < 1 || 2147483647 < timeout then
      .error (.timeout queue.name)
    else if queue.cron.isNone && !queue.inputSchema then .error (.missingInput queue.name)
    else if queue.cron.isSome && queue.inputSchema && !handler.initFn then
      .error (.missingInitFn queue.name)
    else if (queue.cron.isNone || !queue.inputSchema) && handler.initFn then
      .error (.strayInitFn queue.name)
    else .ok ⟨queue, handler.initFn⟩

def normalizeWorkerQueues (queues : List QueueContract)
    (handlers : QueueContract → Option QueueHandler) : Except RegistryError (List NormalizedQueue) := do
  assertUniqueQueueNames queues
  queues.mapM (normalizeQueue handlers)

/-- The checks of `selectProcessed`, with its set `selected`. -/
def checkProcessed (known selected : List String) : List String → Except RegistryError Unit
  | [] => .ok ()
  | name :: names =>
    if name ∉ known then .error (.unknownProcess name)
    else if name ∈ selected then .error (.repeatedProcess name)
    else checkProcessed known (name :: selected) names

def selectProcessed (queues : List NormalizedQueue) (names : List String) :
    Except RegistryError (List NormalizedQueue) := do
  if names = [] then throw .emptyProcess
  checkProcessed (queues.map (·.contract.name)) [] names
  pure (queues.filter fun queue => queue.contract.name ∈ names)

/-! ## Pools -/

/-- The runner of a queue. -/
def QueueContract.runnerOf (defaultRunner : Option String) (queue : QueueContract) : Option String :=
  queue.runner <|> defaultRunner

/-- The loop of `assignQueues`. -/
def assignLoop (runners : List String) (defaultRunner : Option String)
    (assigned : Table String (List String)) :
    List QueueContract → Except RegistryError (Table String (List String))
  | [] => .ok assigned
  | queue :: queues =>
    match queue.runnerOf defaultRunner with
    | none => .error (.missingRunner queue.name)
    | some runner =>
      if runner ∉ runners then .error (.unknownRunner queue.name runner)
      else
        assignLoop runners defaultRunner
          (assigned.insert runner ((assigned.get? runner).getD [] ++ [queue.name])) queues

def assignQueues (runners : List String) (defaultRunner : Option String)
    (queues : List QueueContract) : Except RegistryError (Table String (List String)) :=
  match defaultRunner with
  | some runner =>
    if runner ∉ runners then .error (.defaultRunner runner)
    else assignLoop runners defaultRunner ∅ queues
  | none => assignLoop runners defaultRunner ∅ queues

/-- The queues that a worker of the pool processes. -/
def createWorker (queues : List QueueContract) (handlers : QueueContract → Option QueueHandler)
    (process : List String) : Except RegistryError (List NormalizedQueue) := do
  assertUniqueQueueNames queues
  selectProcessed (← normalizeWorkerQueues queues handlers) process

/-- The queues of each worker of `createBetterWorkerPool`. -/
def createBetterWorkerPool (runners : List String) (defaultRunner : Option String)
    (queues : List QueueContract) (handlers : QueueContract → Option QueueHandler) :
    Except RegistryError (List (String × List NormalizedQueue)) := do
  let assigned ← assignQueues runners defaultRunner queues
  assigned.rows.mapM fun (runner, names) => do
    let processed ← createWorker queues handlers names
    pure (runner, processed)

/-! ## Task lists -/

inductive Operation where
  | process
  | init
deriving DecidableEq

/-- What a task runs: the `processFn` or the `initFn` of a queue. -/
structure TaskHandler where
  queue : QueueContract
  operation : Operation

/-- The properties that `buildTaskList` sets for a queue, in order. -/
def NormalizedQueue.tasks (queue : NormalizedQueue) : List (String × TaskHandler) :=
  if queue.initFn then
    [(queue.contract.initName, ⟨queue.contract, .init⟩), (queue.contract.name, ⟨queue.contract, .process⟩)]
  else [(queue.contract.name, ⟨queue.contract, .process⟩)]

/-- `buildTaskList`: a property that is set twice keeps its last value. -/
def buildTaskList (queues : List NormalizedQueue) : Table String TaskHandler :=
  (queues.flatMap NormalizedQueue.tasks).foldl (fun taskList task => taskList.insert task.1 task.2) ∅

/-! ## Producers -/

def findQueue (queues : List QueueContract) (name : String) : Except RegistryError QueueContract :=
  match queues.find? (·.name = name) with
  | some queue => .ok queue
  | none => .error (.unknownQueue name (queues.map QueueContract.name))

/-- The identifier that `resolveOne` enqueues. -/
def resolveOne (queues : List QueueContract) (name : String) (cron : Bool) :
    Except RegistryError String := do
  let queue ← findQueue queues name
  if cron && queue.cron.isNone then throw (.noSchedule name)
  pure (if cron && queue.type = .cronInit then name ++ cronInitSuffix else name)

/-- The identifier of every item that `resolveMany` enqueues. -/
def resolveMany (queues : List QueueContract) (name : String) : Except RegistryError String := do
  let queue ← findQueue queues name
  if !queue.inputSchema then throw (.cronBatch name)
  pure name

/-- Not empty, as `if (!q.cron)` asks. -/
def QueueContract.scheduled (queue : QueueContract) : Bool :=
  match queue.cron with
  | none | some (.pattern "") => false
  | some _ => true

/-- The task of a queue's cron items. -/
def QueueContract.cronTask (queue : QueueContract) : String :=
  if queue.type = .cronInit then queue.initName else queue.name

/-- What enqueues jobs of a queue. -/
inductive JobSource where
  | createJob
  | createJobs
  | prepareJob
  | prepareJobs
  | triggerCron
  /-- `ctx.step.triggerAndWait` and its batch form prepare their children. -/
  | wait (batch : Bool)
  /-- The `initFn` of the queue returned items. -/
  | initFanOut
deriving DecidableEq

/-- The identifier a source enqueues under. -/
def JobSource.identifier (queues : List QueueContract) (name : String) :
    JobSource → Except RegistryError String
  | .createJob | .prepareJob | .wait false => resolveOne queues name false
  | .triggerCron => resolveOne queues name true
  | .createJobs | .prepareJobs | .wait true | .initFanOut => resolveMany queues name

/-- What a source's jobs are meant to run. -/
def JobSource.operation (queue : QueueContract) : JobSource → Operation
  | .triggerCron => if queue.type = .cronInit then .init else .process
  | _ => .process

/-! ## Cron items -/

/-- What a cron item matches times with. -/
inductive CronMatch where
  | pattern (text : String)
  | matcher (id : ℕ)

def cronMatches : Option CronSchedule → List CronMatch
  | none => []
  | some (.pattern text) => [.pattern text]
  | some (.matcher id) => [.matcher id]
  | some (.patterns texts) => texts.map .pattern

structure CronItem where
  task : String
  schedule : CronMatch
  payload : Json
  identifier : String
  maxAttempts : ℤ
  backfillPeriod : Option ℤ
  queueName : Option String
  priority : Option ℤ
  jobKey : Option String
  jobKeyMode : Option JobKeyMode

/-- `resolveSerialQueueName`. -/
def Serial.queueName (name : String) : Serial → String
  | .own => name
  | .lane queueName => queueName

namespace QueueContract

variable (queue : QueueContract)

/-- A field of `cronOptions`. -/
def cronOption {α : Type} (field : QueueCronOptions → Option α) : Option α :=
  queue.cronOptions.bind field

/-- `options?.identifier ?? taskName`. -/
def cronIdentifier : String := (queue.cronOption (·.identifier)).getD queue.cronTask

def cronMaxAttempts (defaultMaxAttempts : ℤ) : ℤ :=
  (queue.cronOption (·.maxAttempts) <|> queue.maxAttempts).getD defaultMaxAttempts

def cronPriority : Option ℤ := queue.cronOption (·.priority) <|> queue.priority

/-- The checks of `resolveEnqueueSpec` without call options. -/
def checkCronSpec (defaultMaxAttempts : ℤ) : Except RegistryError Unit :=
  if queue.cronMaxAttempts defaultMaxAttempts < 1 ∨ 32767 < queue.cronMaxAttempts defaultMaxAttempts then
    .error (.integer "maxAttempts" 1 32767)
  else if queue.cronPriority.any fun priority => priority < -32768 || 32767 < priority then
    .error (.integer "priority" (-32768) 32767)
  else .ok ()

/-- The identifier of a queue's item; the items of several schedules are numbered. -/
def itemIdentifier (index : ℕ) : String :=
  if 1 < (cronMatches queue.cron).length then queue.cronIdentifier ++ ":" ++ toString index
  else queue.cronIdentifier

def cronItems (defaultMaxAttempts : ℤ) : List CronItem :=
  (cronMatches queue.cron).mapIdx fun index schedule =>
    { task := queue.cronTask
      schedule
      payload := Payload.injectTraceContext none none
      identifier := queue.itemIdentifier index
      maxAttempts := queue.cronMaxAttempts defaultMaxAttempts
      backfillPeriod := queue.cronOption (·.backfillPeriod)
      queueName := queue.cronOption (·.queueName) <|> queue.serial.map (Serial.queueName queue.name)
      priority := queue.cronPriority
      jobKey := queue.cronOption (·.jobKey)
      jobKeyMode := queue.cronOption (·.jobKeyMode) }

end QueueContract

/-- The last loop of `buildCronItems`, with its set `identifiers`. -/
def checkIdentifiers (identifiers : List String) : List CronItem → Except RegistryError Unit
  | [] => .ok ()
  | item :: items =>
    if item.identifier ∈ identifiers then .error (.cronIdentifier item.identifier)
    else checkIdentifiers (item.identifier :: identifiers) items

def buildCronItems (queues : List QueueContract) (defaultMaxAttempts : ℤ) :
    Except RegistryError (List CronItem) := do
  let items ← (queues.filter QueueContract.scheduled).mapM fun queue => do
    queue.checkCronSpec defaultMaxAttempts
    pure (queue.cronItems defaultMaxAttempts)
  checkIdentifiers [] items.flatten
  pure items.flatten

/-! ## Which registries are accepted -/

namespace QueueContract

variable {queue : QueueContract}

theorem type_eq_cronInit : queue.type = .cronInit ↔ queue.cron.isSome = true ∧ queue.inputSchema = true := by
  unfold type
  cases queue.cron.isSome <;> cases queue.inputSchema <;> simp

theorem name_ne_initName : queue.name ≠ queue.initName := by
  intro h
  have hlength := congrArg String.length h
  simp [initName, cronInitSuffix] at hlength

/-- Its identifiers are a name or an initializer. -/
theorem mem_taskNames {task : String} : task ∈ queue.taskNames ↔
    task = queue.name ∨ (queue.type = .cronInit ∧ task = queue.initName) := by
  unfold taskNames
  split <;> simp_all

theorem nodup_taskNames : queue.taskNames.Nodup := by
  unfold taskNames
  split
  · simp [name_ne_initName]
  · exact List.nodup_singleton _

end QueueContract

/-- The identifiers are new, and no two of them are equal. -/
private structure Fresh (taskNames : List String) (queues : List QueueContract) : Prop where
  valid : ∀ queue ∈ queues, queue.name ≠ "" ∧ queue.name ≠ "then"
  nodup : (queues.flatMap QueueContract.taskNames).Nodup
  fresh : ∀ queue ∈ queues, ∀ task ∈ queue.taskNames, task ∉ taskNames

private theorem fresh_cons {taskNames : List String} {queue : QueueContract}
    {queues : List QueueContract} : Fresh taskNames (queue :: queues) ↔
      (queue.name ≠ "" ∧ queue.name ≠ "then") ∧ (∀ task ∈ queue.taskNames, task ∉ taskNames) ∧
        Fresh (queue.taskNames ++ taskNames) queues := by
  constructor
  · rintro ⟨valid, nodup, fresh⟩
    rw [List.forall_mem_cons] at valid fresh
    rw [List.flatMap_cons, List.nodup_append'] at nodup
    obtain ⟨-, hnodup, hdisjoint⟩ := nodup
    refine ⟨valid.1, fresh.1, valid.2, hnodup, fun queue' hqueue' task htask hmem => ?_⟩
    rcases List.mem_append.mp hmem with hmem | hmem
    · exact hdisjoint hmem (List.mem_flatMap.mpr ⟨queue', hqueue', htask⟩)
    · exact fresh.2 queue' hqueue' task htask hmem
  · rintro ⟨hvalid, hfresh, valid, nodup, fresh⟩
    refine ⟨List.forall_mem_cons.mpr ⟨hvalid, valid⟩, ?_, List.forall_mem_cons.mpr ⟨hfresh, ?_⟩⟩
    · rw [List.flatMap_cons, List.nodup_append']
      refine ⟨QueueContract.nodup_taskNames, nodup, fun task htask hmem => ?_⟩
      obtain ⟨queue', hqueue', htask'⟩ := List.mem_flatMap.mp hmem
      exact fresh queue' hqueue' task htask' (List.mem_append_left _ htask)
    · intro queue' hqueue' task htask hmem
      exact fresh queue' hqueue' task htask (List.mem_append_right _ hmem)

private theorem fresh_congr {taskNames taskNames' : List String} {queues : List QueueContract}
    (h : ∀ task, task ∈ taskNames ↔ task ∈ taskNames') : Fresh taskNames queues ↔ Fresh taskNames' queues := by
  constructor
  · rintro ⟨valid, nodup, fresh⟩
    exact ⟨valid, nodup, fun queue hqueue task htask => (h task).not.mp (fresh queue hqueue task htask)⟩
  · rintro ⟨valid, nodup, fresh⟩
    exact ⟨valid, nodup, fun queue hqueue task htask => (h task).not.mpr (fresh queue hqueue task htask)⟩

private theorem checkQueueNames_iff {names taskNames : List String} {queues : List QueueContract}
    (hnames : names ⊆ taskNames) :
    checkQueueNames names taskNames queues = .ok () ↔ Fresh taskNames queues := by
  induction queues generalizing names taskNames with
  | nil => exact ⟨fun _ => ⟨by simp, by simp, by simp⟩, fun _ => rfl⟩
  | cons queue queues ih =>
    rw [fresh_cons]
    by_cases hvalid : queue.name = "" ∨ queue.name = "then"
    · simp only [checkQueueNames, if_pos hvalid, reduceCtorEq, false_iff]
      tauto
    by_cases hname : queue.name ∈ taskNames
    · -- One of the two errors, whether it is a name or a generated identifier.
      have herror : checkQueueNames names taskNames (queue :: queues) ≠ .ok () := by
        simp only [checkQueueNames, if_neg hvalid]
        split <;> simp
      simp only [herror, false_iff]
      rintro ⟨-, hfresh, -⟩
      exact hfresh queue.name (QueueContract.mem_taskNames.mpr (.inl rfl)) hname
    have hnames' : queue.name :: names ⊆ queue.name :: taskNames := List.cons_subset_cons _ hnames
    have hsplit : checkQueueNames names taskNames (queue :: queues) =
        if queue.cron.isSome && queue.inputSchema then
          if queue.initName ∈ queue.name :: names ∨ queue.initName ∈ queue.name :: taskNames then
            .error (.nameCollision queue.initName)
          else checkQueueNames (queue.name :: names) (queue.initName :: queue.name :: taskNames) queues
        else checkQueueNames (queue.name :: names) (queue.name :: taskNames) queues := by
      simp only [checkQueueNames, if_neg hvalid, if_neg (fun h => hname (hnames h)), if_neg hname]
    rw [hsplit]
    cases hinit : queue.cron.isSome && queue.inputSchema with
    | false =>
      have htype : queue.taskNames = [queue.name] := by
        have hne : queue.type ≠ .cronInit := by
          rw [Ne, QueueContract.type_eq_cronInit, ← Bool.and_eq_true, hinit]
          simp
        simp [QueueContract.taskNames, hne]
      rw [if_neg (by simp), ih hnames', htype]
      simp only [List.forall_mem_singleton, List.singleton_append]
      tauto
    | true =>
      have htype : queue.taskNames = [queue.name, queue.initName] := by
        have heq : queue.type = .cronInit := by
          rw [QueueContract.type_eq_cronInit, ← Bool.and_eq_true, hinit]
        simp [QueueContract.taskNames, heq]
      have hmem : queue.initName ∈ queue.name :: names ∨ queue.initName ∈ queue.name :: taskNames ↔
          queue.initName ∈ taskNames := by
        have hne := queue.name_ne_initName.symm
        have hsub := @hnames queue.initName
        simp only [List.mem_cons, hne, false_or]
        tauto
      rw [if_pos rfl, htype]
      by_cases hcollision : queue.initName ∈ taskNames
      · rw [if_pos (hmem.mpr hcollision)]
        simp [hcollision]
      · have hcongr : ∀ task, task ∈ queue.initName :: queue.name :: taskNames ↔
            task ∈ [queue.name, queue.initName] ++ taskNames := by
          intro task
          simp only [List.mem_cons, List.cons_append, List.nil_append]
          tauto
        rw [if_neg (hmem.not.mpr hcollision), ih (fun _ h => List.mem_cons_of_mem _ (hnames' h)),
          fresh_congr hcongr]
        simp only [List.forall_mem_cons]
        tauto

/-- The registries that are accepted. -/
theorem assertUniqueQueueNames_iff {queues : List QueueContract} :
    assertUniqueQueueNames queues = .ok () ↔
      (∀ queue ∈ queues, queue.name ≠ "" ∧ queue.name ≠ "then") ∧
        (queues.flatMap QueueContract.taskNames).Nodup := by
  rw [assertUniqueQueueNames, checkQueueNames_iff (List.nil_subset _)]
  constructor
  · rintro ⟨valid, nodup, -⟩
    exact ⟨valid, nodup⟩
  · rintro ⟨valid, nodup⟩
    exact ⟨valid, nodup, by simp⟩

/-- Two queues of an accepted registry share no identifier. -/
theorem queue_of_task {queues : List QueueContract} (hunique : assertUniqueQueueNames queues = .ok ())
    {queue queue' : QueueContract} (hqueue : queue ∈ queues) (hqueue' : queue' ∈ queues) {task : String}
    (htask : task ∈ queue.taskNames) (htask' : task ∈ queue'.taskNames) : queue = queue' := by
  have hnodup := (assertUniqueQueueNames_iff.mp hunique).2
  have hdisjoint := (List.nodup_flatMap.mp hnodup).2
  have hsame : queues.Pairwise fun queue queue' =>
      ∀ task ∈ queue.taskNames, task ∈ queue'.taskNames → queue = queue' := by
    apply hdisjoint.imp
    intro queue queue' h task htask htask'
    exact (h htask htask').elim
  have hflip : queues.Pairwise (flip fun queue queue' =>
      ∀ task ∈ queue.taskNames, task ∈ queue'.taskNames → queue = queue') :=
    hsame.imp fun h task htask htask' => (h task htask' htask).symm
  exact hsame.forall_of_forall_of_flip (fun _ _ _ _ _ => rfl) hflip hqueue hqueue' task htask htask'

theorem queue_of_name {queues : List QueueContract} (hunique : assertUniqueQueueNames queues = .ok ())
    {queue queue' : QueueContract} (hqueue : queue ∈ queues) (hqueue' : queue' ∈ queues)
    (hname : queue.name = queue'.name) : queue = queue' :=
  queue_of_task hunique hqueue hqueue' (QueueContract.mem_taskNames.mpr (.inl rfl))
    (QueueContract.mem_taskNames.mpr (.inl hname))

/-! ## The queues of a worker -/

section
variable {ε α β : Type} {f : α → Except ε β}

theorem bind_eq_ok {x : Except ε α} {b : β} : x >>= f = .ok b ↔ ∃ a, x = .ok a ∧ f a = .ok b := by
  cases x with
  | error e => simp [bind, Except.bind]
  | ok a => simp [bind, Except.bind]

theorem forall₂_of_mapM : ∀ {l : List α} {l' : List β}, l.mapM f = .ok l' →
    List.Forall₂ (fun a b => f a = .ok b) l l'
  | [], l', h => by
    obtain rfl : [] = l' := by simpa [pure, Except.pure] using h
    exact .nil
  | a :: l, l', h => by
    rw [List.mapM_cons] at h
    obtain ⟨b, hb, h⟩ := bind_eq_ok.mp h
    obtain ⟨bs, hbs, h⟩ := bind_eq_ok.mp h
    obtain rfl := Except.ok.inj h
    exact .cons hb (forall₂_of_mapM hbs)

theorem exists_left {R : α → β → Prop} {l : List α} {l' : List β} (h : List.Forall₂ R l l') {b : β}
    (hb : b ∈ l') : ∃ a ∈ l, R a b := by
  induction h with
  | nil => cases hb
  | cons hr _ ih =>
    rcases List.mem_cons.mp hb with rfl | hb
    · exact ⟨_, List.mem_cons_self, hr⟩
    · obtain ⟨a, ha, hr⟩ := ih hb
      exact ⟨a, List.mem_cons_of_mem _ ha, hr⟩

theorem exists_right {R : α → β → Prop} {l : List α} {l' : List β} (h : List.Forall₂ R l l') {a : α}
    (ha : a ∈ l) : ∃ b ∈ l', R a b :=
  exists_left h.flip ha

end

/-- The initializer of a normalized queue has a task of its own. -/
structure NormalizedQueue.Ok (queues : List QueueContract) (normalized : NormalizedQueue) : Prop where
  registered : normalized.contract ∈ queues
  initFn : normalized.initFn = true ↔ normalized.contract.type = .cronInit

theorem normalizeQueue_ok {handlers : QueueContract → Option QueueHandler} {queue : QueueContract}
    {normalized : NormalizedQueue} (h : normalizeQueue handlers queue = .ok normalized) :
    normalized.contract = queue ∧ (normalized.initFn = true ↔ queue.type = .cronInit) := by
  unfold normalizeQueue at h
  split at h
  · cases h
  · rename_i handler _
    split at h
    · cases h
    · split at h
      · cases h
      · split at h
        · cases h
        · split at h
          · cases h
          · rename_i hinit hstray
            obtain rfl := Except.ok.inj h
            refine ⟨rfl, ?_⟩
            rw [QueueContract.type_eq_cronInit]
            cases hcron : queue.cron <;> cases hinput : queue.inputSchema <;>
              cases hfn : handler.initFn <;> simp_all

/-- Every queue is normalized, and every initializer is one of a cron-init queue. -/
theorem normalizeWorkerQueues_ok {queues : List QueueContract}
    {handlers : QueueContract → Option QueueHandler} {normalized : List NormalizedQueue}
    (h : normalizeWorkerQueues queues handlers = .ok normalized) :
    normalized.map NormalizedQueue.contract = queues ∧ ∀ queue ∈ normalized, queue.Ok queues := by
  obtain ⟨-, -, hmap⟩ := bind_eq_ok.mp h
  have hall := forall₂_of_mapM hmap
  clear h hmap
  have hcontracts : normalized.map NormalizedQueue.contract = queues := by
    rw [← List.forall₂_eq_eq_eq, List.forall₂_map_left_iff]
    exact hall.flip.imp fun _ _ h => (normalizeQueue_ok h).1
  refine ⟨hcontracts, fun queue hqueue => ?_⟩
  obtain ⟨contract, hmem, hok⟩ := exists_left hall hqueue
  obtain ⟨rfl, hinit⟩ := normalizeQueue_ok hok
  exact ⟨hmem, hinit⟩

theorem selectProcessed_ok {queues selected : List NormalizedQueue} {names : List String}
    (h : selectProcessed queues names = .ok selected) :
    selected = queues.filter fun queue => queue.contract.name ∈ names := by
  unfold selectProcessed at h
  split at h
  · cases h
  · obtain ⟨-, -, h⟩ := bind_eq_ok.mp h
    exact (Except.ok.inj h).symm

theorem createWorker_ok {queues : List QueueContract} {handlers : QueueContract → Option QueueHandler}
    {process : List String} {processed : List NormalizedQueue}
    (h : createWorker queues handlers process = .ok processed) :
    assertUniqueQueueNames queues = .ok () ∧ ∃ normalized,
      normalizeWorkerQueues queues handlers = .ok normalized ∧
      processed = normalized.filter fun queue => queue.contract.name ∈ process := by
  obtain ⟨⟨⟩, hunique, h⟩ := bind_eq_ok.mp h
  obtain ⟨normalized, hnormalized, hselect⟩ := bind_eq_ok.mp h
  exact ⟨hunique, normalized, hnormalized, selectProcessed_ok hselect⟩

/-! ## The runners of a pool -/

section
variable {runners : List String} {defaultRunner : Option String} {queues : List QueueContract}

/-- A runner has the names of its queues, and a runner without queues is not started. -/
private theorem assignLoop_ok {assigned assigned' : Table String (List String)}
    (h : assignLoop runners defaultRunner assigned queues = .ok assigned') :
    (∀ queue ∈ queues, ∃ runner ∈ runners, queue.runnerOf defaultRunner = some runner) ∧
    ∀ runner name, (∃ names, assigned'.get? runner = some names ∧ name ∈ names) ↔
      (∃ names, assigned.get? runner = some names ∧ name ∈ names) ∨
        ∃ queue ∈ queues, queue.name = name ∧ queue.runnerOf defaultRunner = some runner := by
  induction queues generalizing assigned with
  | nil =>
    obtain rfl := Except.ok.inj h
    simp
  | cons queue queues ih =>
    simp only [assignLoop] at h
    split at h
    · cases h
    · rename_i runner hrunner
      split at h
      · cases h
      · rename_i hknown
        obtain ⟨hall, hnames⟩ := ih h
        refine ⟨List.forall_mem_cons.mpr ⟨⟨runner, not_not.mp hknown, hrunner⟩, hall⟩, ?_⟩
        intro runner' name
        rw [hnames, Table.get?_insert]
        by_cases hsame : runner' = runner
        · subst hsame
          cases hget : assigned.get? runner' <;> simp [hrunner, or_assoc, eq_comm]
        · have hne : runner ≠ runner' := fun h => hsame h.symm
          simp [hsame, hrunner, hne]

theorem assignQueues_ok {assigned : Table String (List String)}
    (h : assignQueues runners defaultRunner queues = .ok assigned) :
    (∀ queue ∈ queues, ∃ runner ∈ runners, queue.runnerOf defaultRunner = some runner) ∧
    ∀ runner name, (∃ names, assigned.get? runner = some names ∧ name ∈ names) ↔
      ∃ queue ∈ queues, queue.name = name ∧ queue.runnerOf defaultRunner = some runner := by
  have hloop : assignLoop runners defaultRunner ∅ queues = .ok assigned := by
    unfold assignQueues at h
    split at h
    · split at h
      · cases h
      · exact h
    · exact h
  obtain ⟨hall, hnames⟩ := assignLoop_ok hloop
  exact ⟨hall, fun runner name => by simpa using hnames runner name⟩

end

/-! ## One handler for each task -/

section
variable {queues : List QueueContract} {worker : List NormalizedQueue} {task : String}
  {handler handler' : TaskHandler} {normalized normalized' : NormalizedQueue}

theorem NormalizedQueue.Ok.mem_tasks (h : normalized.Ok queues) :
    (task, handler) ∈ normalized.tasks ↔
      handler.queue = normalized.contract ∧
        ((task = normalized.contract.name ∧ handler.operation = .process) ∨
          (normalized.contract.type = .cronInit ∧ task = normalized.contract.initName ∧
            handler.operation = .init)) := by
  obtain ⟨queue, operation⟩ := handler
  rw [← h.initFn]
  unfold NormalizedQueue.tasks
  split
  · rename_i hinit
    simp only [List.mem_cons, Prod.mk.injEq, TaskHandler.mk.injEq, List.not_mem_nil, or_false, hinit]
    tauto
  · rename_i hinit
    simp only [List.mem_singleton, Prod.mk.injEq, TaskHandler.mk.injEq, hinit]
    tauto

private theorem get?_foldl {tasks : List (String × TaskHandler)} {taskList : Table String TaskHandler} :
    (∀ handler, (tasks.foldl (fun taskList task => taskList.insert task.1 task.2) taskList).get? task =
        some handler → (task, handler) ∈ tasks ∨ taskList.get? task = some handler) ∧
      ((∃ handler, (task, handler) ∈ tasks) ∨ (taskList.get? task).isSome →
        ((tasks.foldl (fun taskList task => taskList.insert task.1 task.2) taskList).get? task).isSome) := by
  induction tasks generalizing taskList with
  | nil => simp
  | cons first tasks ih =>
    obtain ⟨hfrom, hto⟩ := @ih (taskList.insert first.1 first.2)
    simp only [List.foldl_cons]
    constructor
    · intro handler h
      rcases hfrom handler h with hmem | hget
      · exact .inl (List.mem_cons_of_mem _ hmem)
      · rw [Table.get?_insert] at hget
        split at hget
        · rename_i htask
          obtain rfl := Option.some.inj hget
          exact .inl (by simp [htask])
        · exact .inr hget
    · rintro (⟨handler, hmem⟩ | hget)
      · rcases List.mem_cons.mp hmem with rfl | hmem
        · exact hto (.inr (by simp))
        · exact hto (.inl ⟨handler, hmem⟩)
      · refine hto (.inr ?_)
        rw [Table.get?_insert]
        split
        · rfl
        · exact hget

/-- Two handlers for one task are the same. -/
private theorem handler_eq (hunique : assertUniqueQueueNames queues = .ok ()) (hok : normalized.Ok queues)
    (hok' : normalized'.Ok queues) (h : (task, handler) ∈ normalized.tasks)
    (h' : (task, handler') ∈ normalized'.tasks) :
    normalized.contract = normalized'.contract ∧ handler = handler' := by
  rw [hok.mem_tasks] at h
  rw [hok'.mem_tasks] at h'
  have htask : task ∈ normalized.contract.taskNames := by
    rw [QueueContract.mem_taskNames]
    tauto
  have htask' : task ∈ normalized'.contract.taskNames := by
    rw [QueueContract.mem_taskNames]
    tauto
  have hsame := queue_of_task hunique hok.registered hok'.registered htask htask'
  refine ⟨hsame, ?_⟩
  obtain ⟨queue, operation⟩ := handler
  obtain ⟨queue', operation'⟩ := handler'
  rw [← hsame] at h'
  have hne := normalized.contract.name_ne_initName
  rcases h with ⟨rfl, ⟨rfl, rfl⟩ | ⟨-, rfl, rfl⟩⟩
  · rcases h' with ⟨rfl, ⟨-, rfl⟩ | ⟨-, hinit, -⟩⟩
    · rfl
    · exact absurd hinit hne
  · rcases h' with ⟨rfl, ⟨hname, -⟩ | ⟨-, -, rfl⟩⟩
    · exact absurd hname.symm hne
    · rfl

/-- A worker handles the tasks of its queues and no others. -/
theorem get?_buildTaskList (hunique : assertUniqueQueueNames queues = .ok ())
    (hworker : ∀ normalized ∈ worker, normalized.Ok queues) :
    (buildTaskList worker).get? task = some handler ↔
      ∃ normalized ∈ worker, (task, handler) ∈ normalized.tasks := by
  obtain ⟨hfrom, hto⟩ := @get?_foldl task (worker.flatMap NormalizedQueue.tasks) ∅
  constructor
  · intro h
    rcases hfrom handler h with hmem | hget
    · exact List.mem_flatMap.mp hmem
    · simp at hget
  · rintro ⟨normalized, hmem, htask⟩
    obtain ⟨handler', hget⟩ := Option.isSome_iff_exists.mp
      (hto (.inl ⟨handler, List.mem_flatMap.mpr ⟨normalized, hmem, htask⟩⟩))
    rcases hfrom handler' hget with htask' | hnone
    · obtain ⟨normalized', hmem', htask'⟩ := List.mem_flatMap.mp htask'
      obtain ⟨-, rfl⟩ := handler_eq hunique (hworker _ hmem) (hworker _ hmem') htask htask'
      exact hget
    · simp at hnone

end

/-! ## Pools and producers -/

section
variable {runners : List String} {defaultRunner : Option String} {queues : List QueueContract}
  {handlers : QueueContract → Option QueueHandler} {workers : List (String × List NormalizedQueue)}

/-- Every queue belongs to one worker, the one of its runner. -/
structure PoolOk (defaultRunner : Option String) (queues : List QueueContract)
    (workers : List (String × List NormalizedQueue)) : Prop where
  runners : (workers.map Prod.fst).Nodup
  ok : ∀ worker ∈ workers, ∀ normalized ∈ worker.2, normalized.Ok queues ∧
    normalized.contract.runnerOf defaultRunner = some worker.1
  every : ∀ queue ∈ queues, ∃ worker ∈ workers, ∃ normalized ∈ worker.2, normalized.contract = queue

private theorem workers_of_pool (h : createBetterWorkerPool runners defaultRunner queues handlers = .ok workers) :
    ∃ assigned, assignQueues runners defaultRunner queues = .ok assigned ∧
      List.Forall₂ (fun assignment worker => worker.1 = assignment.1 ∧
        createWorker queues handlers assignment.2 = .ok worker.2) assigned.rows workers := by
  obtain ⟨assigned, hassigned, h⟩ := bind_eq_ok.mp h
  refine ⟨assigned, hassigned, (forall₂_of_mapM h).imp ?_⟩
  intro assignment worker hworker
  obtain ⟨processed, hcreate, hworker⟩ := bind_eq_ok.mp hworker
  obtain rfl := Except.ok.inj hworker
  exact ⟨rfl, hcreate⟩

theorem createBetterWorkerPool_ok
    (h : createBetterWorkerPool runners defaultRunner queues handlers = .ok workers) :
    (workers ≠ [] → assertUniqueQueueNames queues = .ok ()) ∧ PoolOk defaultRunner queues workers := by
  obtain ⟨assigned, hassigned, hworkers⟩ := workers_of_pool h
  obtain ⟨hrunner, hnames⟩ := assignQueues_ok hassigned
  have hfirst : workers.map Prod.fst = assigned.rows.map Prod.fst := by
    rw [← List.forall₂_eq_eq_eq, List.forall₂_map_left_iff, List.forall₂_map_right_iff]
    exact hworkers.flip.imp fun _ _ h => h.1
  refine ⟨?_, hfirst ▸ assigned.nodup, ?_, ?_⟩
  · intro hne
    obtain ⟨worker, hworker⟩ := List.exists_mem_of_ne_nil _ hne
    obtain ⟨_, -, -, hcreate⟩ := exists_left hworkers hworker
    exact (createWorker_ok hcreate).1
  · intro worker hworker normalized hmem
    obtain ⟨⟨runner, names⟩, hrow, hfst, hcreate⟩ := exists_left hworkers hworker
    obtain ⟨hunique, all, hall, hprocessed⟩ := createWorker_ok hcreate
    rw [hprocessed, List.mem_filter, decide_eq_true_eq] at hmem
    have hok := (normalizeWorkerQueues_ok hall).2 normalized hmem.1
    refine ⟨hok, ?_⟩
    -- The runner has the name, and only one queue has that name.
    obtain ⟨queue, hqueue, hname, hassign⟩ := (hnames runner normalized.contract.name).mp
      ⟨names, Table.get?_eq_some_iff.mpr hrow, hmem.2⟩
    rw [← queue_of_name hunique hqueue hok.registered hname, hfst, hassign]
  · intro queue hqueue
    obtain ⟨runner, -, hassign⟩ := hrunner queue hqueue
    obtain ⟨names, hget, hname⟩ := (hnames runner queue.name).mpr ⟨queue, hqueue, rfl, hassign⟩
    obtain ⟨worker, hworker, -, hcreate⟩ := exists_right hworkers (Table.get?_eq_some_iff.mp hget)
    obtain ⟨-, all, hall, hprocessed⟩ := createWorker_ok hcreate
    rw [← (normalizeWorkerQueues_ok hall).1] at hqueue
    obtain ⟨normalized, hmem, rfl⟩ := List.mem_map.mp hqueue
    refine ⟨worker, hworker, normalized, ?_, rfl⟩
    rw [hprocessed, List.mem_filter, decide_eq_true_eq]
    exact ⟨hmem, hname⟩

/-- Exactly one worker has the task, and it runs the handler. -/
def HandledOnce (workers : List (String × List NormalizedQueue)) (task : String)
    (handler : TaskHandler) : Prop :=
  ∃ worker ∈ workers, (buildTaskList worker.2).get? task = some handler ∧
    ∀ worker' ∈ workers, ((buildTaskList worker'.2).get? task).isSome → worker' = worker

/-- The handler that a queue's identifier stands for. -/
def QueueContract.Names (queue : QueueContract) (task : String) (operation : Operation) : Prop :=
  (task = queue.name ∧ operation = .process) ∨
    (queue.type = .cronInit ∧ task = queue.initName ∧ operation = .init)

theorem PoolOk.handledOnce (h : PoolOk defaultRunner queues workers)
    (hunique : assertUniqueQueueNames queues = .ok ()) {queue : QueueContract} (hqueue : queue ∈ queues)
    {task : String} {operation : Operation} (hnames : queue.Names task operation) :
    HandledOnce workers task ⟨queue, operation⟩ := by
  obtain ⟨worker, hworker, normalized, hmem, rfl⟩ := h.every queue hqueue
  have hok := (h.ok worker hworker normalized hmem).1
  have htask : (task, ⟨normalized.contract, operation⟩) ∈ normalized.tasks :=
    hok.mem_tasks.mpr ⟨rfl, hnames⟩
  refine ⟨worker, hworker, ?_, ?_⟩
  · rw [get?_buildTaskList hunique fun normalized hmem => (h.ok worker hworker normalized hmem).1]
    exact ⟨normalized, hmem, htask⟩
  · intro worker' hworker' hsome
    obtain ⟨handler, hget⟩ := Option.isSome_iff_exists.mp hsome
    rw [get?_buildTaskList hunique fun normalized hmem => (h.ok worker' hworker' normalized hmem).1] at hget
    obtain ⟨normalized', hmem', htask'⟩ := hget
    obtain ⟨hok', hrunner'⟩ := h.ok worker' hworker' normalized' hmem'
    obtain ⟨hsame, -⟩ := handler_eq hunique hok hok' htask htask'
    -- The queue has one runner, and no two workers share a runner.
    have hrunner := (h.ok worker hworker normalized hmem).2
    rw [← hsame, hrunner, Option.some.injEq] at hrunner'
    exact List.inj_on_of_nodup_map h.runners hworker' hworker hrunner'.symm

theorem findQueue_ok {name : String} {queue : QueueContract} (h : findQueue queues name = .ok queue) :
    queue ∈ queues ∧ queue.name = name := by
  unfold findQueue at h
  split at h
  · rename_i queue' hfind
    obtain rfl := Except.ok.inj h
    exact ⟨List.mem_of_find?_eq_some hfind, by simpa using List.find?_some hfind⟩
  · cases h

private theorem resolveOne_ok {name task : String} {cron : Bool} (h : resolveOne queues name cron = .ok task) :
    ∃ queue ∈ queues, queue.name = name ∧
      queue.Names task (if cron && queue.type = .cronInit then .init else .process) := by
  obtain ⟨queue, hfind, h⟩ := bind_eq_ok.mp h
  obtain ⟨hqueue, rfl⟩ := findQueue_ok hfind
  refine ⟨queue, hqueue, rfl, ?_⟩
  dsimp only at h
  split at h
  · cases h
  · obtain rfl := Except.ok.inj h
    by_cases hinit : (cron && queue.type = .cronInit) = true
    · rw [if_pos hinit, if_pos hinit]
      simp only [Bool.and_eq_true, decide_eq_true_eq] at hinit
      exact .inr ⟨hinit.2, rfl, rfl⟩
    · rw [if_neg hinit, if_neg hinit]
      exact .inl ⟨rfl, rfl⟩

private theorem resolveMany_ok {name task : String} (h : resolveMany queues name = .ok task) :
    ∃ queue ∈ queues, queue.name = name ∧ queue.Names task .process := by
  obtain ⟨queue, hfind, h⟩ := bind_eq_ok.mp h
  obtain ⟨hqueue, rfl⟩ := findQueue_ok hfind
  refine ⟨queue, hqueue, rfl, .inl ⟨?_, rfl⟩⟩
  split at h
  · cases h
  · exact (Except.ok.inj h).symm

theorem JobSource.identifier_ok {source : JobSource} {name task : String}
    (h : source.identifier queues name = .ok task) :
    ∃ queue ∈ queues, queue.name = name ∧ queue.Names task (source.operation queue) := by
  cases source with
  | createJob | prepareJob => exact resolveOne_ok h
  | triggerCron => simpa [operation] using resolveOne_ok h
  | createJobs | prepareJobs | initFanOut => exact resolveMany_ok h
  | wait batch =>
    cases batch with
    | false => exact resolveOne_ok h
    | true => exact resolveMany_ok h

private theorem checkIdentifiers_ok {identifiers : List String} {items : List CronItem}
    (h : checkIdentifiers identifiers items = .ok ()) :
    (items.map CronItem.identifier).Nodup ∧ ∀ item ∈ items, item.identifier ∉ identifiers := by
  induction items generalizing identifiers with
  | nil => simp
  | cons item items ih =>
    unfold checkIdentifiers at h
    split at h
    · cases h
    · rename_i hnew
      obtain ⟨hnodup, hfresh⟩ := ih h
      refine ⟨?_, List.forall_mem_cons.mpr ⟨hnew, fun item' hitem' hmem => ?_⟩⟩
      · rw [List.map_cons, List.nodup_cons]
        refine ⟨fun hmem => ?_, hnodup⟩
        obtain ⟨item', hitem', heq⟩ := List.mem_map.mp hmem
        exact hfresh item' hitem' (heq ▸ List.mem_cons_self)
      · exact hfresh item' hitem' (List.mem_cons_of_mem _ hmem)

/-- A worker that starts has the items of its scheduled queues, with distinct identifiers. -/
theorem buildCronItems_ok {defaultMaxAttempts : ℤ} {items : List CronItem}
    (h : buildCronItems queues defaultMaxAttempts = .ok items) :
    items = (queues.filter QueueContract.scheduled).flatMap (·.cronItems defaultMaxAttempts) ∧
      (items.map CronItem.identifier).Nodup := by
  obtain ⟨lists, hmap, h⟩ := bind_eq_ok.mp h
  obtain ⟨⟨⟩, hcheck, h⟩ := bind_eq_ok.mp h
  obtain rfl := Except.ok.inj h
  refine ⟨?_, (checkIdentifiers_ok hcheck).1⟩
  have hlists : (queues.filter QueueContract.scheduled).map (·.cronItems defaultMaxAttempts) = lists := by
    rw [← List.forall₂_eq_eq_eq, List.forall₂_map_left_iff]
    apply (forall₂_of_mapM hmap).imp
    intro queue list hqueue
    obtain ⟨-, -, hlist⟩ := bind_eq_ok.mp hqueue
    exact Except.ok.inj hlist
  rw [← hlists, List.flatMap_def]

theorem QueueContract.task_of_cronItem {queue : QueueContract} {defaultMaxAttempts : ℤ} {item : CronItem}
    (h : item ∈ queue.cronItems defaultMaxAttempts) : item.task = queue.cronTask := by
  obtain ⟨index, hindex, rfl⟩ := List.mem_mapIdx.mp h
  rfl

theorem mem_buildCronItems {defaultMaxAttempts : ℤ} {items : List CronItem}
    (h : buildCronItems queues defaultMaxAttempts = .ok items) {item : CronItem} (hitem : item ∈ items) :
    ∃ queue ∈ queues, queue.scheduled = true ∧ item ∈ queue.cronItems defaultMaxAttempts := by
  rw [(buildCronItems_ok h).1] at hitem
  obtain ⟨queue, hqueue, hitem⟩ := List.mem_flatMap.mp hitem
  obtain ⟨hqueue, hscheduled⟩ := List.mem_filter.mp hqueue
  exact ⟨queue, hqueue, hscheduled, hitem⟩

/-- What the cron items of a queue run. -/
def QueueContract.cronOperation (queue : QueueContract) : Operation :=
  if queue.type = .cronInit then .init else .process

theorem QueueContract.names_cronTask {queue : QueueContract} :
    queue.Names queue.cronTask queue.cronOperation := by
  unfold cronTask cronOperation
  split
  · rename_i hinit
    exact .inr ⟨hinit, rfl, rfl⟩
  · exact .inl ⟨rfl, rfl⟩

/--
A registry is accepted if and only if its names are valid and its identifiers distinct, in
whatever order it lists its queues. Every identifier that is enqueued, and every one that
a cron item carries, is then handled by one worker of the pool: by the right function of
the queue it was enqueued for, or whose schedule made the item.
-/
theorem handled_once :
    (assertUniqueQueueNames queues = .ok () ↔
      (∀ queue ∈ queues, queue.name ≠ "" ∧ queue.name ≠ "then") ∧
        (queues.flatMap QueueContract.taskNames).Nodup) ∧
    (∀ queues', queues.Perm queues' →
      (assertUniqueQueueNames queues = .ok () ↔ assertUniqueQueueNames queues' = .ok ())) ∧
    (assertUniqueQueueNames queues = .ok () →
      ∀ workers, createBetterWorkerPool runners defaultRunner queues handlers = .ok workers →
        (workers.map Prod.fst).Nodup ∧
        (∀ (source : JobSource) name task, source.identifier queues name = .ok task →
          ∃ queue ∈ queues, queue.name = name ∧ HandledOnce workers task ⟨queue, source.operation queue⟩) ∧
        (∀ worker ∈ workers, ∀ defaultMaxAttempts items,
          buildCronItems (worker.2.map NormalizedQueue.contract) defaultMaxAttempts = .ok items →
          ∀ item ∈ items, ∃ queue ∈ worker.2.map NormalizedQueue.contract, queue ∈ queues ∧
            queue.scheduled = true ∧ item ∈ queue.cronItems defaultMaxAttempts ∧
            HandledOnce workers item.task ⟨queue, queue.cronOperation⟩)) := by
  refine ⟨assertUniqueQueueNames_iff, ?_, ?_⟩
  · intro queues' hperm
    rw [assertUniqueQueueNames_iff, assertUniqueQueueNames_iff, (hperm.flatMap_right _).nodup_iff]
    simp only [hperm.mem_iff]
  · intro hunique workers hpool
    obtain ⟨-, hok⟩ := createBetterWorkerPool_ok hpool
    refine ⟨hok.runners, ?_, ?_⟩
    · intro source name task htask
      obtain ⟨queue, hqueue, hname, hnames⟩ := JobSource.identifier_ok htask
      exact ⟨queue, hqueue, hname, hok.handledOnce hunique hqueue hnames⟩
    -- An item is made of the queue whose schedule it carries, which its own worker processes.
    · intro worker hworker defaultMaxAttempts items hitems item hitem
      obtain ⟨queue, hqueue, hscheduled, hmade⟩ := mem_buildCronItems hitems hitem
      obtain ⟨normalized, hmem, rfl⟩ := List.mem_map.mp hqueue
      have hregistered := (hok.ok worker hworker normalized hmem).1.registered
      refine ⟨normalized.contract, hqueue, hregistered, hscheduled, hmade, ?_⟩
      rw [QueueContract.task_of_cronItem hmade]
      exact hok.handledOnce hunique hregistered QueueContract.names_cronTask

end

namespace RegistryTrace

/-- Initialised twice a day. -/
def report : QueueContract :=
  ⟨"report", true, some (.patterns ["0 5 * * *", "0 17 * * *"]), none, none, none, none, none, none⟩

def mail : QueueContract := ⟨"mail", true, none, none, none, none, none, none, some "bulk"⟩

def handlers (queue : QueueContract) : Option QueueHandler := some ⟨queue.cron.isSome⟩

def pool : Except RegistryError (List (String × List NormalizedQueue)) :=
  createBetterWorkerPool ["main", "bulk"] (some "main") [report, mail] handlers

def workers : List (String × List NormalizedQueue) :=
  [("bulk", [⟨mail, false⟩]), ("main", [⟨report, true⟩])]

end RegistryTrace

open RegistryTrace in
/-- A queue of each runner, resolved by name, by its schedule and by the items of its runner. -/
theorem handled_once_pool :
    assertUniqueQueueNames [report, mail] = .ok () ∧ pool = .ok workers ∧
      HandledOnce workers "mail" ⟨mail, .process⟩ ∧
      HandledOnce workers report.initName ⟨report, .init⟩ ∧
      (report.cronItems 25).length = 2 ∧
      ∀ item ∈ report.cronItems 25, HandledOnce workers item.task ⟨report, .init⟩ := by
  have hpool : pool = .ok workers := rfl
  have hunique : assertUniqueQueueNames [report, mail] = .ok () := rfl
  obtain ⟨-, -, hhandled⟩ := @handled_once ["main", "bulk"] (some "main") [report, mail] handlers
  obtain ⟨-, hjob, hcron⟩ := hhandled hunique workers hpool
  have mem {queue : QueueContract} {name : String} (h : queue ∈ [report, mail])
      (hname : queue.name = name) : queue = report ∧ name = "report" ∨ queue = mail ∧ name = "mail" := by
    simp only [List.mem_cons, List.not_mem_nil, or_false] at h
    rcases h with rfl | rfl
    · exact .inl ⟨rfl, hname.symm⟩
    · exact .inr ⟨rfl, hname.symm⟩
  refine ⟨hunique, hpool, ?_, ?_, rfl, ?_⟩
  · obtain ⟨queue, hqueue, hname, h⟩ := hjob .createJob "mail" "mail" rfl
    obtain ⟨rfl, hbad⟩ | ⟨rfl, -⟩ := mem hqueue hname
    · exact absurd hbad (by decide)
    · exact h
  · obtain ⟨queue, hqueue, hname, h⟩ := hjob .triggerCron "report" report.initName rfl
    obtain ⟨rfl, -⟩ | ⟨rfl, hbad⟩ := mem hqueue hname
    · exact h
    · exact absurd hbad (by decide)
  · intro item hitem
    obtain ⟨queue, hqueue, -, -, -, h⟩ :=
      hcron ("main", [⟨report, true⟩]) (.tail _ (.head _)) 25 (report.cronItems 25) rfl item hitem
    rw [List.eq_of_mem_singleton hqueue] at h
    exact h

end BetterGraphileWorker.Registry
