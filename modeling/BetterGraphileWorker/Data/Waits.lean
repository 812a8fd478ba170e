-- SUMMARY: Child reports and wait checkpoints: their JSON encoding and how a wait call decodes them.
import BetterGraphileWorker.Data.Payload

/-!
# Child reports and wait checkpoints

The data of `waits.ts`: what a child's worker reports, what a finished wait stores
under its id, and `decodeWaitCheckpoint`, which every wait call ends in. An output
schema is a function from the wire value (`none` is undefined) to the parsed value
or the text of its issues.
-/

namespace BetterGraphileWorker

abbrev JobId := ℕ

/-- A child's final state; the output is absent when the handler returned undefined. -/
inductive ChildReport where
  | ok (output : Option Json)
  | failed (name message : String)

def ChildReport.toJson : ChildReport → Json
  | .ok none => .obj [("ok", .bool true)]
  | .ok (some output) => .obj [("ok", .bool true), ("output", output)]
  | .failed name message =>
      .obj [("ok", .bool false), ("error", .obj [("name", .str name), ("message", .str message)])]

/-- What a finished wait checkpoints: every child's report, or the children still pending. -/
inductive WaitCheckpoint where
  | results (reports : List (JobId × Json))
  | timedOut (pending : List JobId)

/-- `{ id: row.id, ...row.result }`. -/
def checkpointRow (id : JobId) : Json → Json
  | .obj fields => .obj (fields ++ [("id", .str (toString id))])
  | _ => .obj [("id", .str (toString id))]

def WaitCheckpoint.toJson : WaitCheckpoint → Json
  | .results reports => .arr (reports.map fun report => checkpointRow report.1 report.2)
  | .timedOut pending => .obj [("timedOut", .arr (pending.map fun id => .str (toString id)))]

/-- `queue.outputSchema.safeParseAsync`. -/
abbrev OutputSchema (V : Type*) := Option Json → Except String V

/-- The parts of a queue contract that waits read. -/
structure QueueContract (V : Type*) where
  name : String
  outputSchema : Option (OutputSchema V)

inductive WaitResult (V : Type*) where
  | ok (id : String) (output : Option V)
  | failed (id queueName name message : String)

/-- The errors a wait call can end with once it has a checkpoint. -/
inductive WaitError where
  | timeout (waitId : String) (pending : List String)
  | notResults (waitId : String)
  | invalidOutput (queueName issues : String)

variable {V : Type*}

/-- Parse an output; a queue without an output schema has none. -/
def parseOutput (queue : QueueContract V) (value : Option Json) : Except WaitError (Option V) :=
  match queue.outputSchema with
  | none => .ok none
  | some schema => match schema value with
    | .ok parsed => .ok (some parsed)
    | .error issues => .error (.invalidOutput queue.name issues)

/-- `encodeQueueOutput`: the wire form of a returned JSON value that the schema accepts. -/
def encodeQueueOutput (queue : QueueContract V) (value : Option Json) :
    Except WaitError (Option Json) :=
  match queue.outputSchema with
  | none => .ok none
  | some _ => (parseOutput queue value).map fun _ => value

/-- A field that holds a string; checkpoints store ids, names and messages as strings. -/
def stringField (value : Json) (key : String) : String :=
  match value.get? key with
  | some (.str s) => s
  | _ => ""

def jsonString : Json → String
  | .str s => s
  | _ => ""

/-- One element of a stored result list. -/
def decodeReport (queue : QueueContract V) (report : Json) : Except WaitError (WaitResult V) :=
  let id := stringField report "id"
  if (report.get? "ok").any Json.isTrue then
    (parseOutput queue (report.get? "output")).map (WaitResult.ok id)
  else
    let error := (report.get? "error").getD .null
    .ok (.failed id queue.name (stringField error "name") (stringField error "message"))

/-- `decodeWaitCheckpoint`: results in input order, or the stored timeout again. -/
def decodeWaitCheckpoint (waitId : String) (queue : QueueContract V) (stored : Json) :
    Except WaitError (List (WaitResult V)) :=
  match stored with
  | .arr reports => reports.mapM (decodeReport queue)
  | .obj _ => match stored.get? "timedOut" with
    | some (.arr pending) => .error (.timeout waitId (pending.map jsonString))
    | _ => .error (.notResults waitId)
  | _ => .error (.notResults waitId)

/-- The result a parent sees for one report of the child with the given id. -/
def ChildReport.result (queue : QueueContract V) (id : JobId) :
    ChildReport → Except WaitError (WaitResult V)
  | .ok output => (parseOutput queue output).map (WaitResult.ok (toString id))
  | .failed name message => .ok (.failed (toString id) queue.name name message)

theorem decodeReport_checkpointRow (queue : QueueContract V) (id : JobId) (report : ChildReport) :
    decodeReport queue (checkpointRow id report.toJson) = report.result queue id := by
  cases report with
  | ok output => cases output <;> rfl
  | failed name message => rfl

/-- The report of a returned value decodes to the schema's parse of that value. -/
theorem result_of_encodeQueueOutput {queue : QueueContract V} {value output : Option Json}
    {schema : OutputSchema V} (hs : queue.outputSchema = some schema)
    (h : encodeQueueOutput queue value = .ok output) (id : JobId) :
    ∃ parsed, schema value = .ok parsed ∧
      (ChildReport.ok output).result queue id = .ok (.ok (toString id) (some parsed)) := by
  simp only [encodeQueueOutput, parseOutput, hs] at h
  cases hp : schema value with
  | error issues => simp [hp, Except.map] at h
  | ok parsed =>
    simp only [hp, Except.map, Except.ok.injEq] at h
    subst h
    exact ⟨parsed, rfl, by simp [ChildReport.result, parseOutput, hs, hp, Except.map]⟩

theorem decodeWaitCheckpoint_results (waitId : String) (queue : QueueContract V)
    (reports : List (JobId × ChildReport)) :
    decodeWaitCheckpoint waitId queue
        (WaitCheckpoint.results (reports.map fun r => (r.1, r.2.toJson))).toJson =
      reports.mapM fun r => r.2.result queue r.1 := by
  have hrows : (WaitCheckpoint.results (reports.map fun r => (r.1, r.2.toJson))).toJson =
      .arr (reports.map fun r => checkpointRow r.1 r.2.toJson) := by
    simp [WaitCheckpoint.toJson]
  simp only [decodeWaitCheckpoint, hrows]
  clear hrows
  induction reports with
  | nil => rfl
  | cons r reports ih =>
    simp only [List.map_cons, List.mapM_cons, decodeReport_checkpointRow, ih]

theorem decodeWaitCheckpoint_timedOut (waitId : String) (queue : QueueContract V)
    (pending : List JobId) :
    decodeWaitCheckpoint waitId queue (WaitCheckpoint.timedOut pending).toJson =
      .error (.timeout waitId (pending.map toString)) := by
  have hjson : (WaitCheckpoint.timedOut pending).toJson.get? "timedOut" =
      some (.arr (pending.map fun id => .str (toString id))) := rfl
  simp only [decodeWaitCheckpoint, WaitCheckpoint.toJson] at hjson ⊢
  rw [hjson]
  simp [jsonString, Function.comp_def]

end BetterGraphileWorker
