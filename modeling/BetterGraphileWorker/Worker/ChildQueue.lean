-- SUMMARY: The code about child jobs that a worker and the test harness share: wire inputs, the run of a child, and its output.
import BetterGraphileWorker.Worker.JsValues
import BetterGraphileWorker.Worker.Registry

/-!
# Child queues

A queue with its schemas and its handler, how the producer turns the inputs of a wait into
the payloads of its children, and what a child's run makes of the data it gets: it parses
the data, runs the handler and encodes the returned value. Schemas are functions of the
value; zod is where they come from.
-/

namespace BetterGraphileWorker

/-- What a schema reports of a value it refuses; path elements by their text. -/
structure Issue where
  path : List String
  message : String

def Issue.text (issue : Issue) : String :=
  (if issue.path.isEmpty then "(root)" else ".".intercalate issue.path) ++ ": " ++ issue.message

/-- `schema.safeParseAsync`. -/
abbrev Schema (V : Type) := JsValue → Except (List Issue) V

def issuesText (issues : List Issue) : String := "; ".intercalate (issues.map Issue.text)

def jobValidationError (queueName : String) (issues : List Issue) (subject : String) : Thrown :=
  .nonRetriable "JobValidationError"
    ("Invalid " ++ subject ++ " for queue \"" ++ queueName ++ "\": " ++ issuesText issues)

/-- A normalized queue, whose handler gets no payload without an input schema. -/
structure ChildQueue (P V : Type) where
  name : String
  inputSchema : Option (Schema P)
  outputSchema : Option (Schema V)
  processFn : Option P → Except Thrown JsValue

/-- The inputs of `triggerAndWait`, or of `batchTriggerAndWait`. -/
inductive WaitInputs where
  | one (input : JsValue)
  | batch (inputs : List JsValue)

def WaitInputs.toList : WaitInputs → List JsValue
  | .one input => [input]
  | .batch inputs => inputs

namespace ChildQueue

variable {P V : Type} (queue : ChildQueue P V)

/-- `parseQueuePayload`; `index` is the item's place in a batch that is enqueued. -/
def parseQueuePayload (data : JsValue) (index : Option ℕ) : Except Thrown (Option P) :=
  match queue.inputSchema with
  | none => .ok none
  | some schema => match schema data with
    | .ok payload => .ok (some payload)
    | .error issues =>
      let issues := issues.map fun issue => { issue with path := (index.map toString).toList ++ issue.path }
      .error (jobValidationError queue.name issues "payload")

/-! ## Enqueueing -/

/-- `prepare` in strict mode: the wire input that is stored, once it is checked and validated. -/
def prepare (data : JsValue) (index : Option ℕ) : Except Thrown (Option Json) := do
  data.assertJsonValue
  let _ ← queue.parseQueuePayload (.ofStored data.snapshot) index
  pure data.snapshot

/-- The payload that `resolveOne` stores. A queue without an input schema is a cron queue. -/
def resolveOne (data : JsValue) : Except Thrown (Option Json) :=
  if queue.inputSchema.isNone then .ok none else queue.prepare data none

/-- The payloads that `resolveMany` stores. -/
def resolveMany (data : List JsValue) : Except Thrown (List (Option Json)) :=
  if queue.inputSchema.isNone then
    .error (.error "Error" ("createJobs cannot enqueue cron queue \"" ++ queue.name ++
      "\"; use createJob or triggerCron"))
  else data.zipIdx.mapM fun item => queue.prepare item.1 (some item.2)

/-- The payloads of a wait's children. -/
def resolve : WaitInputs → Except Thrown (List (Option Json))
  | .one input => (queue.resolveOne input).map ([·])
  | .batch inputs => queue.resolveMany inputs

/-! ## Running a child -/

/-- `encodeQueueOutput`: validate a returned value and keep its JSON copy. -/
def encodeQueueOutput (value : JsValue) : Except Thrown (Option Json) :=
  match queue.outputSchema with
  | none => .ok none
  | some schema => match schema value with
    | .error issues => .error (jobValidationError queue.name issues "output")
    | .ok _ => value.assertJsonValue.map fun _ => value.snapshot

/-- The executor of the queue's task, and the harness's run of a child. -/
def run (data : JsValue) : Except Thrown (Option Json) := do
  let payload ← queue.parseQueuePayload data none
  let value ← queue.processFn payload
  queue.encodeQueueOutput value

/-- The payload that the handler is called with, if it is called. -/
def received (data : JsValue) : Option (Option P) := (queue.parseQueuePayload data none).toOption

/-- What waits read of the queue. -/
def contract : QueueContract V where
  name := queue.name
  outputSchema := queue.outputSchema.map fun schema value => (schema (.ofStored value)).mapError issuesText

variable {queue}

/-- On JSON values this is the encoding that reports are decoded from. -/
theorem encodeQueueOutput_ofStored (value : Option Json) :
    (queue.encodeQueueOutput (.ofStored value)).toOption =
      (BetterGraphileWorker.encodeQueueOutput queue.contract value).toOption := by
  cases hschema : queue.outputSchema with
  | none =>
    simp [encodeQueueOutput, BetterGraphileWorker.encodeQueueOutput, contract, hschema,
      Except.toOption]
  | some schema =>
    have hassert := JsValue.assertJsonValue_ofStored value
    have hcopy := JsValue.snapshot_ofStored value
    cases hparse : schema (.ofStored value) <;>
      simp [encodeQueueOutput, BetterGraphileWorker.encodeQueueOutput, parseOutput, contract, hschema,
        hparse, hassert, hcopy, Except.map, Except.mapError, Except.toOption]

/-! ## What the producer accepts -/

/-- A payload that the producer stores for a wire input: the input's copy, if the schema accepts it. -/
structure Stores (queue : ChildQueue P V) (input : JsValue) (stored : Option Json) : Prop where
  copy : queue.inputSchema.isSome → stored = input.snapshot
  bare : queue.inputSchema.isNone → stored = none
  parses : (queue.received (.ofStored stored)).isSome

end ChildQueue

end BetterGraphileWorker
