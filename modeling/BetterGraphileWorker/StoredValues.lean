-- SUMMARY: Which accepted values PostgreSQL can store: the casts of every statement that touches a job, and the strings that pass them all.
import BetterGraphileWorker.Data.Jsonb
import BetterGraphileWorker.Data.Waits

/-!
# Stored values

Validation accepts any string in a wire input, a step output, a progress value and a child's
output, and any message of an error. An input reaches a `json` column, as a text or, in a batch,
through JSON functions that read every escape; every patch of its envelope casts that column to
`jsonb`; outputs and reports are `jsonb` parameters, and the message of an outcome is a `text`
one. The traceparent and `_cron` are ASCII and left out.
-/

namespace BetterGraphileWorker

namespace Wire

/-- Every string of the value has a value in `jsonb`. -/
def Clean (value : Wire) : Prop := ∀ s ∈ value.strings, s.Clean

/-- An object of the library, with ASCII keys. -/
def record (fields : List (String × Wire)) : Wire :=
  .obj (fields.map fun (key, value) => (JsString.ofName key, value))

end Wire

/-! ## Envelopes and reports -/

/-- The envelope of a new job. -/
def wireEnvelope (input : Option Wire) : Wire :=
  match input with
  | none => .record [("__bgw", .num 2), ("payload", .null), ("payloadUndefined", .bool true)]
  | some value => .record [("__bgw", .num 2), ("payload", value)]

/-- `entry`, as `writeCheckpoint` stores it. -/
def wireEntry (output : Option Wire) : Wire :=
  match output with
  | none => .record [("output", .null), ("isVoid", .bool true)]
  | some value => .record [("output", value)]

/-- How a child's run ends. -/
inductive WireReport where
  | ok (output : Option Wire)
  | failed (name message : JsString)

def WireReport.toWire : WireReport → Wire
  | .ok none => .record [("ok", .bool true)]
  | .ok (some output) => .record [("ok", .bool true), ("output", output)]
  | .failed name message =>
    .record [("ok", .bool false), ("error", .record [("name", .str name), ("message", .str message)])]

section
variable {input output : Option Json}

/-- The envelope is that of the payload, over JavaScript strings. -/
theorem toWire_injectTraceContext :
    (Payload.injectTraceContext input none).toWire = wireEnvelope (input.map Json.toWire) := by
  cases input <;> rfl

theorem toWire_entry : (entry output).toJson.toWire = wireEntry (output.map Json.toWire) := by
  cases output <;> rfl

theorem toWire_ok : (ChildReport.ok output).toJson.toWire =
    (WireReport.ok (output.map Json.toWire)).toWire := by
  cases output <;> rfl

theorem toWire_failed {name message : String} : (ChildReport.failed name message).toJson.toWire =
    (WireReport.failed (.ofString name) (.ofString message)).toWire := rfl

end

/-! ## Statements -/

/-- What the settlements of a job record: a report if a wait enqueued it, and an outcome. -/
structure Settlement where
  waited : Bool
  outcomes : Bool

/-- A statement on the row of a job, with the values that it carries. -/
inductive Statement where
  /-- The output of a step, or the results of a wait. -/
  | checkpoint (id : JsString) (output : Option Wire)
  | progress (value : Wire)
  | waited
  | readProgress
  /-- Completion, retention, discard or a failure that was the last one. -/
  | settle (report : WireReport)
  /-- The successor's row takes the place of this one. -/
  | continue (progress : Option Wire)

/-- The `steps` object of a payload. -/
def wireSteps (payload : Wire) : Wire :=
  match payload.get? (.ofName "steps") with
  | some (.obj fields) => .obj fields
  | _ => .obj []

def wireContinuation (payload : Wire) (progress : Option Wire) : Wire :=
  match progress with
  | none => payload
  | some value => payload.set (.ofName "progress") value

namespace Statement

/-- The casts of values and of the row's payload. -/
def casts (job : Settlement) (payload : Wire) : Statement → List Cast
  | checkpoint _ output => [.jsonb payload, .jsonb (wireEntry output)]
  | progress value => [.jsonb payload, .jsonb value]
  | waited | readProgress => [.jsonb payload]
  | settle report =>
    (match job.outcomes, report with
      | true, .failed _ message => [.text message]
      | _, _ => []) ++
    if job.waited then [.jsonb report.toWire] else []
  | «continue» value => [.json (wireContinuation payload value)]

/-- The casts of ids. -/
def ids : Statement → List Cast
  | checkpoint id _ => [.text id]
  | _ => []

/-- The payload that the statement leaves. -/
def apply (payload : Wire) : Statement → Wire
  | checkpoint id output =>
    payload.set (.ofName "steps") ((wireSteps payload).set (encodeText id) (wireEntry output))
  | progress value => payload.set (.ofName "progress") value
  | waited => payload.set (.ofName "waited") (.bool true)
  | readProgress | settle _ => payload
  | «continue» value => wireContinuation payload value

/-- A statement with a cast that fails changes nothing. -/
def exec (job : Settlement) (payload : Wire) (s : Statement) : Wire :=
  if (s.casts job payload ++ s.ids).all Cast.accepts then s.apply payload else payload

end Statement

/-! ## Lives of a job -/

/-- The statement that enqueues a job. -/
inductive EnqueueStatement where
  | addJob
  | addJobs
  | bgwAddJobs

/-- What it makes of the job's envelope; the JSON functions of a batch read every escape. -/
def EnqueueStatement.cast (envelope : Wire) : EnqueueStatement → Cast
  | .addJob => .json envelope
  | .addJobs | .bgwAddJobs => .jsonb envelope

/-- A job from its enqueue on. -/
structure JobLife where
  job : Settlement
  enqueue : EnqueueStatement
  input : Option Wire
  statements : List Statement

/-- No statement of the run fails for what a value contains. -/
def Accepts (job : Settlement) : Wire → List Statement → Prop
  | _, [] => True
  | payload, s :: rest =>
    (∀ cast ∈ s.casts job payload, cast.accepts = true) ∧ Accepts job (s.exec job payload) rest

/-- The other statements find in the row what the enqueue stored. -/
def JobLife.Accepted (life : JobLife) : Prop :=
  (life.enqueue.cast (wireEnvelope life.input)).accepts = true ∧
    Accepts life.job (wireEnvelope life.input) life.statements

/-- A value that the library was given and has accepted. -/
inductive Given where
  | input (value : Option Wire)
  | stepOutput (value : Option Wire)
  | progress (value : Wire)
  | childOutput (value : Option Wire)
  | error (name message : JsString)

def Statement.given : Statement → List Given
  | checkpoint _ output => [.stepOutput output]
  | progress value => [.progress value]
  | settle (.ok output) => [.childOutput output]
  | settle (.failed name message) => [.error name message]
  | «continue» (some value) => [.progress value]
  | waited | readProgress | «continue» none => []

def JobLife.given (life : JobLife) : List Given :=
  .input life.input :: life.statements.flatMap Statement.given

/-- Every later statement on the job can store the value. -/
def Given.Storable (job : Settlement) : Given → Prop
  | .input value | .stepOutput value => ∀ v ∈ value, v.Clean
  | .progress value => value.Clean
  | .childOutput value => job.waited = true → ∀ v ∈ value, v.Clean
  | .error name message =>
    (job.outcomes = true → 0 ∉ message) ∧ (job.waited = true → name.Clean ∧ message.Clean)

/-! ## Clean values -/

theorem jsonb_accepts_iff_clean {value : Wire} : (Cast.jsonb value).accepts = true ↔ value.Clean :=
  jsonb_accepts_iff

namespace Wire

variable {value field : Wire} {key : JsString} {fields : List (JsString × Wire)}

theorem mem_fieldStrings {s : JsString} :
    s ∈ fieldStrings fields ↔ ∃ key value, (key, value) ∈ fields ∧ (s = key ∨ s ∈ value.strings) := by
  induction fields with
  | nil => simp [fieldStrings]
  | cons entry fields ih =>
    obtain ⟨key, value⟩ := entry
    simp only [fieldStrings, List.cons_append, List.mem_cons, List.mem_append, ih, Prod.mk.injEq]
    constructor
    · rintro (h | h | ⟨key', value', hmem, h⟩)
      · exact ⟨key, value, .inl ⟨rfl, rfl⟩, .inl h⟩
      · exact ⟨key, value, .inl ⟨rfl, rfl⟩, .inr h⟩
      · exact ⟨key', value', .inr hmem, h⟩
    · rintro ⟨key', value', ⟨rfl, rfl⟩ | hmem, h⟩
      · exact h.imp id .inl
      · exact .inr (.inr ⟨key', value', hmem, h⟩)

theorem clean_obj_iff : (Wire.obj fields).Clean ↔
    ∀ key value, (key, value) ∈ fields → key.Clean ∧ value.Clean := by
  simp only [Clean, strings, mem_fieldStrings]
  constructor
  · intro h key value hmem
    refine ⟨h key ⟨key, value, hmem, .inl rfl⟩, fun s hs => ?_⟩
    exact h s ⟨key, value, hmem, .inr hs⟩
  · rintro h s ⟨key, value, hmem, rfl | hs⟩
    · exact (h s value hmem).1
    · exact (h key value hmem).2 s hs

theorem Clean.set (h : value.Clean) (hkey : key.Clean) (hfield : field.Clean) :
    (value.set key field).Clean := by
  cases value with
  | obj fields =>
    rw [clean_obj_iff] at h
    rw [Wire.set, clean_obj_iff]
    intro key' value' hmem
    cases List.mem_cons.mp hmem with
    | inl heq =>
      cases heq
      exact ⟨hkey, hfield⟩
    | inr hmem => exact h key' value' (List.mem_of_mem_filter hmem)
  | _ => exact h

theorem Clean.get? (h : value.Clean) (hget : value.get? key = some field) : field.Clean := by
  cases value with
  | obj fields =>
    rw [clean_obj_iff] at h
    obtain ⟨before, after, rfl, -⟩ := List.lookup_eq_some_iff.mp hget
    have hmem : (key, field) ∈ before ++ (key, field) :: after := by simp
    exact (h key field hmem).2
  | _ => cases hget

theorem clean_record_iff {fields : List (String × Wire)}
    (hkeys : ∀ f ∈ fields, (JsString.ofName f.1).Clean) :
    (record fields).Clean ↔ ∀ f ∈ fields, f.2.Clean := by
  rw [record, clean_obj_iff]
  constructor
  · intro h f hf
    exact (h _ _ (List.mem_map_of_mem hf)).2
  · intro h key value hmem
    obtain ⟨f, hf, heq⟩ := List.mem_map.mp hmem
    cases heq
    exact ⟨hkeys f hf, h f hf⟩

@[simp] theorem clean_str {s : JsString} : (Wire.str s).Clean ↔ s.Clean := by simp [Clean, strings]

@[simp] theorem clean_null : Wire.null.Clean := nofun

@[simp] theorem clean_bool {b : Bool} : (Wire.bool b).Clean := nofun

@[simp] theorem clean_num {n : Rat} : (Wire.num n).Clean := nofun

end Wire

theorem clean_wireEnvelope {input : Option Wire} :
    (wireEnvelope input).Clean ↔ ∀ v ∈ input, v.Clean := by
  cases input with
  | none =>
    rw [wireEnvelope, Wire.clean_record_iff (by decide)]
    simp
  | some value =>
    rw [wireEnvelope, Wire.clean_record_iff]
    · simp
    · simp only [List.mem_cons, List.not_mem_nil, or_false, forall_eq_or_imp, forall_eq]
      decide

theorem clean_wireEntry {output : Option Wire} :
    (wireEntry output).Clean ↔ ∀ v ∈ output, v.Clean := by
  cases output with
  | none =>
    rw [wireEntry, Wire.clean_record_iff (by decide)]
    simp
  | some value =>
    rw [wireEntry, Wire.clean_record_iff]
    · simp
    · simp only [List.mem_cons, List.not_mem_nil, or_false, forall_eq]
      decide

theorem clean_toWire {report : WireReport} : report.toWire.Clean ↔ match report with
    | .ok output => ∀ v ∈ output, v.Clean
    | .failed name message => name.Clean ∧ message.Clean := by
  cases report with
  | ok output =>
    cases output with
    | none =>
      rw [WireReport.toWire, Wire.clean_record_iff (by decide)]
      simp
    | some value =>
      rw [WireReport.toWire, Wire.clean_record_iff]
      · simp
      · simp only [List.mem_cons, List.not_mem_nil, or_false, forall_eq_or_imp, forall_eq]
        decide
  | failed name message =>
    have herror : (Wire.record [("name", .str name), ("message", .str message)]).Clean ↔
        name.Clean ∧ message.Clean := by
      rw [Wire.clean_record_iff]
      · simp
      · simp only [List.mem_cons, List.not_mem_nil, or_false, forall_eq_or_imp, forall_eq]
        decide
    rw [WireReport.toWire, Wire.clean_record_iff]
    · simpa using herror
    · simp only [List.mem_cons, List.not_mem_nil, or_false, forall_eq_or_imp, forall_eq]
      decide

private theorem clean_wireSteps {payload : Wire} (h : payload.Clean) : (wireSteps payload).Clean := by
  unfold wireSteps
  split
  · rename_i fields hget
    exact h.get? hget
  · exact nofun

/-! ## Runs -/

variable {job : Settlement} {payload : Wire}

/-- A statement keeps what is in the row readable if the values that it carries are. -/
private theorem clean_statement (s : Statement) (h : payload.Clean)
    (hgiven : ∀ g ∈ s.given, g.Storable job) : (s.exec job payload).Clean := by
  unfold Statement.exec
  split
  · rename_i haccepts
    cases s with
    | checkpoint id output =>
      have hid : 0 ∉ id := by
        have hids := List.all_eq_true.mp haccepts (.text id) (by simp [Statement.ids])
        simpa [Cast.accepts] using hids
      have hentry : (wireEntry output).Clean := clean_wireEntry.mpr (hgiven _ List.mem_cons_self)
      apply h.set (by decide)
      exact (clean_wireSteps h).set (clean_encodeText hid) hentry
    | progress value => exact h.set (by decide) (hgiven _ List.mem_cons_self)
    | waited => exact h.set (by decide) Wire.clean_bool
    | readProgress => exact h
    | settle report => exact h
    | «continue» progress =>
      cases progress with
      | none => exact h
      | some value => exact h.set (by decide) (hgiven _ List.mem_cons_self)
  · exact h

private theorem accepts_casts (s : Statement) (h : payload.Clean)
    (hgiven : ∀ g ∈ s.given, g.Storable job) : ∀ cast ∈ s.casts job payload, cast.accepts = true := by
  have hpayload : (Cast.jsonb payload).accepts = true := jsonb_accepts_iff_clean.mpr h
  cases s with
  | checkpoint id output =>
    have hentry : (wireEntry output).Clean := clean_wireEntry.mpr (hgiven _ List.mem_cons_self)
    simp [Statement.casts, hpayload, jsonb_accepts_iff_clean.mpr hentry]
  | progress value =>
    have hvalue : value.Clean := hgiven _ List.mem_cons_self
    simp [Statement.casts, hpayload, jsonb_accepts_iff_clean.mpr hvalue]
  | waited => simp [Statement.casts, hpayload]
  | readProgress => simp [Statement.casts, hpayload]
  | settle report =>
    have hreport : job.waited = true → (Cast.jsonb report.toWire).accepts = true := by
      intro hwaited
      rw [jsonb_accepts_iff_clean, clean_toWire]
      cases report with
      | ok output =>
        have houtput : Given.Storable job (.childOutput output) := hgiven _ List.mem_cons_self
        exact houtput hwaited
      | failed name message =>
        have herror : Given.Storable job (.error name message) := hgiven _ List.mem_cons_self
        exact herror.2 hwaited
    intro cast hcast
    simp only [Statement.casts, List.mem_append] at hcast
    cases hcast with
    | inl houtcome =>
      split at houtcome
      · rename_i name message houtcomes
        have herror : Given.Storable job (.error name message) := hgiven _ List.mem_cons_self
        cases List.mem_singleton.mp houtcome
        simpa [Cast.accepts] using herror.1 houtcomes
      · cases houtcome
    | inr hcast =>
      split at hcast
      · rename_i hwaited
        cases List.mem_singleton.mp hcast
        exact hreport hwaited
      · cases hcast
  | «continue» progress => simp [Statement.casts, Cast.accepts]

private theorem accepts_of_storable {statements : List Statement} (h : payload.Clean)
    (hgiven : ∀ g ∈ statements.flatMap Statement.given, g.Storable job) :
    Accepts job payload statements := by
  induction statements generalizing payload with
  | nil => trivial
  | cons s rest ih =>
    simp only [List.flatMap_cons, List.mem_append] at hgiven
    have hs : ∀ g ∈ s.given, g.Storable job := fun g hg => hgiven g (.inl hg)
    exact ⟨accepts_casts s h hs, ih (clean_statement s h hs) fun g hg => hgiven g (.inr hg)⟩

/--
Every run that is given the value, and else values that can be stored, is never rejected for what
a value contains if and only if the value can be stored.
-/
theorem storable_iff (job : Settlement) (g : Given) :
    (∀ life : JobLife, life.job = job → (∀ g' ∈ life.given, g' = g ∨ g'.Storable job) →
      life.Accepted) ↔ g.Storable job := by
  constructor
  -- A run that uses the value once, in a statement that casts it, finds out whether it is clean.
  · intro h
    cases g with
    | input value =>
      have hlife := h ⟨job, .addJob, value, [.waited]⟩ rfl (by simp [JobLife.given, Statement.given])
      exact clean_wireEnvelope.mp (jsonb_accepts_iff_clean.mp (hlife.2.1 _ List.mem_cons_self))
    | stepOutput output =>
      have hlife := h ⟨job, .addJob, none, [.checkpoint [97] output]⟩ rfl
        (by simp [JobLife.given, Statement.given, Given.Storable])
      have hentry := hlife.2.1 (.jsonb (wireEntry output)) (by simp [Statement.casts])
      exact clean_wireEntry.mp (jsonb_accepts_iff_clean.mp hentry)
    | progress value =>
      have hlife := h ⟨job, .addJob, none, [.progress value]⟩ rfl
        (by simp [JobLife.given, Statement.given, Given.Storable])
      exact jsonb_accepts_iff_clean.mp (hlife.2.1 (.jsonb value) (by simp [Statement.casts]))
    | childOutput output =>
      intro hwaited
      have hlife := h ⟨job, .addJob, none, [.settle (.ok output)]⟩ rfl
        (by simp [JobLife.given, Statement.given, Given.Storable])
      have hreport := hlife.2.1 (.jsonb (WireReport.ok output).toWire)
        (by simp [Statement.casts, hwaited])
      exact clean_toWire.mp (jsonb_accepts_iff_clean.mp hreport)
    | error name message =>
      have hlife := h ⟨job, .addJob, none, [.settle (.failed name message)]⟩ rfl
        (by simp [JobLife.given, Statement.given, Given.Storable])
      constructor
      · intro houtcomes
        have htext := hlife.2.1 (.text message) (by simp [Statement.casts, houtcomes])
        simpa [Cast.accepts] using htext
      · intro hwaited
        have hreport := hlife.2.1 (.jsonb (WireReport.failed name message).toWire)
          (by simp [Statement.casts, hwaited])
        exact clean_toWire.mp (jsonb_accepts_iff_clean.mp hreport)
  · intro hg life hjob hgiven
    have hall : ∀ g' ∈ life.given, g'.Storable job := by
      intro g' hg'
      cases hgiven g' hg' with
      | inl heq => exact heq ▸ hg
      | inr hstorable => exact hstorable
    have hinput : ∀ v ∈ life.input, v.Clean := hall (.input life.input) List.mem_cons_self
    have henvelope : (wireEnvelope life.input).Clean := clean_wireEnvelope.mpr hinput
    subst hjob
    constructor
    -- A single job's payload stays text; the statements for batches cast it.
    · cases life.enqueue with
      | addJob => rfl
      | _ => exact jsonb_accepts_iff_clean.mpr henvelope
    · exact accepts_of_storable henvelope fun g' hg' => hall g' (List.mem_cons_of_mem _ hg')

namespace RejectedTrace

/-- An input that is U+0000, and a step. -/
def checkpointed : JobLife where
  job := ⟨false, false⟩
  enqueue := .addJob
  input := some (.str [0])
  statements := [.checkpoint (.ofName "fetch") none]

/-- The same input in a batch. -/
def batched : JobLife := { checkpointed with enqueue := .addJobs, statements := [] }

/-- A failure with an unpaired surrogate in its message, of a child. -/
def reported : JobLife where
  job := ⟨true, false⟩
  enqueue := .addJob
  input := none
  statements := [.settle (.failed (.ofName "Error") [0xD83D])]

/-- A failure with U+0000 in its message, of a job with an outcome. -/
def recorded : JobLife where
  job := ⟨false, true⟩
  enqueue := .addJob
  input := none
  statements := [.settle (.failed (.ofName "Error") [0])]

end RejectedTrace

/-- The input is stored, in a batch it is not; no checkpoint after it is, nor are failures recorded. -/
theorem accepted_value_rejected :
    (Cast.json (wireEnvelope RejectedTrace.checkpointed.input)).accepts = true ∧
      ¬RejectedTrace.checkpointed.Accepted ∧ ¬RejectedTrace.batched.Accepted ∧
      ¬RejectedTrace.reported.Accepted ∧ ¬RejectedTrace.recorded.Accepted := by
  refine ⟨rfl, ?_, ?_, ?_, ?_⟩
  · intro h
    have hpayload := h.2.1 (.jsonb (wireEnvelope (some (.str [0])))) List.mem_cons_self
    exact absurd hpayload (by decide)
  · intro h
    exact absurd h.1 (by decide)
  · intro h
    have hreport := h.2.1 (.jsonb (WireReport.failed (.ofName "Error") [0xD83D]).toWire)
      List.mem_cons_self
    exact absurd hreport (by decide)
  · intro h
    have htext := h.2.1 (.text [0]) List.mem_cons_self
    exact absurd htext (by decide)

end BetterGraphileWorker
