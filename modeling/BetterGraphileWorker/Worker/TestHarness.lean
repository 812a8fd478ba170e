-- SUMMARY: The test harness's waits, and when they give the parent what the workers' reports would.
import BetterGraphileWorker.Worker.ChildReports

/-!
# The test harness

`createTestHarness` runs the children of a wait inline, once and in order, on the inputs
themselves, and makes their reports on its own. It shares the producer, the child's run
and the decoding of results with the worker. Nothing of it goes through `jsonb`.
-/

namespace BetterGraphileWorker

/-! ## The harness's wait -/

/-- The name and message of `error instanceof Error ? error : new Error(String(error))`. -/
def Thrown.asError : Thrown → Option (String × String)
  | .value text => text.map ("Error", ·)
  | thrown => thrown.describe

/-- `{ id, ...report }`. -/
def ChildReport.row (id : String) (report : ChildReport) : Json :=
  match report.toJson with
  | .obj fields => .obj (("id", .str id) :: fields)
  | value => value

namespace ChildQueue

variable {P V : Type} (queue : ChildQueue P V)

end ChildQueue

variable {P V : Type}

/-- What a parent reads of a report that a `jsonb` column held. -/
def ChildReport.readBack : ChildReport → ChildReport
  | .ok output => .ok (output.map Json.readBack)
  | .failed name message => .failed name message

variable {queue : ChildQueue P V} {id queueName : String} {outcome : Except Thrown (Option Json)}

/-- The worker of a child with this payload writes one report, which parents read like the harness's. -/
private structure ChildQueue.Writes (queue : ChildQueue P V) (payload : Option Json)
    (report : String × ChildReport) : Prop where
  written : ∀ written, WorkerReports (queue.run (.ofStored (payload.map Json.readBack))) written →
    written = [report.2]
  reads : ∀ jobId, report.2.readBack.result queue.contract jobId = report.2.result queue.contract jobId

namespace HarnessTrace

/-- A queue of texts that fails each of its jobs in the same way. -/
def failing (error : Thrown) : ChildQueue String String where
  name := "thumb"
  inputSchema := some fun
    | .string s => .ok s
    | _ => .error [⟨[], "expected a string"⟩]
  outputSchema := none
  processFn _ := .error error

def inputs : WaitInputs := .batch [.string "a", .string "b"]

end HarnessTrace

namespace HarnessTrace

def retrying : Thrown := .retryAt "RetryAtError" "busy" 0 (some (.error "HttpError" "busy"))

end HarnessTrace

end BetterGraphileWorker
