-- SUMMARY: The version-2 payload envelope: recognition, step cache, and the patches its owner applies to it.
import BetterGraphileWorker.Data.Json

/-!
# The payload envelope

The functions of `payload.ts` and the jsonb expressions with which
`private-jobs.ts` patches the envelope of a locked job: checkpoints, progress,
the waited mark, and the copy that a continuation receives. An id of a step or a wait
is a Lean string, which has no unpaired surrogate; the driver encodes one as U+FFFD,
so that such an id is stored under another one. Numbers are their values: 2.0 and 2,
which the text comparison of `patchEnvelope` tells apart, are one.
-/

namespace BetterGraphileWorker

/-- The decoded checkpoint of a step; `void` is `{ output: null, isVoid: true }`. -/
inductive StepCacheEntry where
  | output (value : Json)
  | void

/-- `entry`: an undefined output is stored as an explicit void. -/
def entry : Option Json → StepCacheEntry
  | none => .void
  | some value => .output value

def StepCacheEntry.toJson : StepCacheEntry → Json
  | .output value => .obj [("output", value)]
  | .void => .obj [("output", .null), ("isVoid", .bool true)]

namespace Payload

/-! ## Reading the envelope -/

/-- The version check of `isPayloadEnvelope`, which compares with the number 2. -/
def isVersion2 (value : Json) : Bool :=
  match value.get? "__bgw" with
  | some (.num n) => n == 2
  | _ => false

def isPayloadEnvelope (value : Json) : Bool :=
  value.isObject && isVersion2 value && value.has "payload" &&
    match value.get? "payloadUndefined" with
    | none | some (.bool false) => true
    | some (.bool true) => (value.get? "payload").any Json.isNull
    | some _ => false

/-- The business input: `cleanPayload` of `extractProducerLink`. -/
def cleanPayload (payload : Json) : Option Json :=
  match payload.get? "payloadUndefined" with
  | some (.bool true) => none
  | _ => payload.get? "payload"

/-- `payload.waited === true`. -/
def waited (payload : Json) : Bool := (payload.get? "waited").any Json.isTrue

/-- One entry of `payload.steps`, as `extractStepCache` accepts it. -/
def decodeEntry (e : Json) : Option StepCacheEntry :=
  match e.get? "output" with
  | none => none
  | some value => some (if (e.get? "isVoid").any Json.isTrue then .void else .output value)

/-- The raw value stored under `steps.id`. -/
def rawStep (payload : Json) (id : String) : Option Json := (payload.get? "steps").bind (·.get? id)

/-- `extractStepCache`, as a function of the step id. -/
def extractStepCache (payload : Json) (id : String) : Option StepCacheEntry :=
  if isPayloadEnvelope payload then (rawStep payload id).bind decodeEntry else none

/-- `injectTraceContext` for business data and the active traceparent. -/
def injectTraceContext (data : Option Json) (traceparent : Option String) : Json :=
  .obj ([("__bgw", .num 2)] ++
    (match data with
      | none => [("payload", .null), ("payloadUndefined", .bool true)]
      | some value => [("payload", value)]) ++
    match traceparent with
    | none => []
    | some t => [("traceparent", .str t)])

/-! ## Patching the envelope -/

/-- The guard of `patchEnvelope`, which compares `data->>'__bgw'` with the text `2`. -/
def patchable (data : Json) : Bool :=
  (match data.get? "__bgw" with
    | some (.num n) => n == 2
    | some (.str s) => s == "2"
    | _ => false) && data.has "payload"

/-- The `steps` object that `writeCheckpoint` extends. -/
def stepsObject (data : Json) : Json :=
  match data.get? "steps" with
  | some (.obj fields) => .obj fields
  | _ => .obj []

/-- The update of `writeCheckpoint`; the driver passes an id without unpaired surrogates as it is. -/
def setStep (data : Json) (id : String) (checkpoint : Json) : Json :=
  data.set "steps" ((stepsObject data).set id checkpoint)

def setProgress (data value : Json) : Json := data.set "progress" value

def markWaited (data : Json) : Json := data.set "waited" (.bool true)

/-- The envelope of a continuation: no cron metadata, the given progress and traceparent. -/
def continueEnvelope (payload : Json) (progress : Option Json) (traceparent : Option String) :
    Json :=
  let envelope := (payload.remove "_cron").remove "traceparent"
  let envelope := match progress with
    | none => envelope
    | some value => envelope.set "progress" value
  match traceparent with
  | none => envelope
  | some t => envelope.set "traceparent" (.str t)

/-! ## Fields the patches leave alone -/

/-- The fields by which an envelope is recognized and its input decoded. -/
def IsInputField (key : String) : Prop := key = "__bgw" ∨ key = "payload" ∨ key = "payloadUndefined"

variable {data data' : Json} {id id' key : String}

theorem isPayloadEnvelope_congr (hobj : data.isObject = data'.isObject)
    (h : ∀ key, IsInputField key → data.get? key = data'.get? key) :
    isPayloadEnvelope data = isPayloadEnvelope data' := by
  have hv := h "__bgw" (.inl rfl)
  have hp := h "payload" (.inr (.inl rfl))
  have hu := h "payloadUndefined" (.inr (.inr rfl))
  simp only [isPayloadEnvelope, isVersion2, Json.has, hobj, hv, hp, hu]

theorem cleanPayload_congr (h : ∀ key, IsInputField key → data.get? key = data'.get? key) :
    cleanPayload data = cleanPayload data' := by
  have hp := h "payload" (.inr (.inl rfl))
  have hu := h "payloadUndefined" (.inr (.inr rfl))
  simp only [cleanPayload, hp, hu]

theorem IsInputField.ne {key' : String} (h : IsInputField key)
    (hne : key' ≠ "__bgw" ∧ key' ≠ "payload" ∧ key' ≠ "payloadUndefined") : key ≠ key' := by
  rcases h with rfl | rfl | rfl
  · exact hne.1.symm
  · exact hne.2.1.symm
  · exact hne.2.2.symm

theorem isObject_of_isPayloadEnvelope (h : isPayloadEnvelope data = true) :
    data.isObject = true := by
  simp only [isPayloadEnvelope, Bool.and_eq_true] at h
  exact h.1.1.1

/-- An envelope the worker accepts is one the patches accept. -/
theorem patchable_of_isPayloadEnvelope (h : isPayloadEnvelope data = true) :
    patchable data = true := by
  simp only [isPayloadEnvelope, isVersion2, Bool.and_eq_true] at h
  obtain ⟨⟨⟨_, hv⟩, hp⟩, _⟩ := h
  simp only [patchable, hp, Bool.and_true]
  split at hv
  · rename_i n hn; simpa [hn] using hv
  · cases hv

@[simp] theorem get?_setStep_ne (hobj : data.isObject = true) (hkey : key ≠ "steps")
    (checkpoint : Json) : (setStep data id checkpoint).get? key = data.get? key := by
  simp [setStep, Json.get?_set hobj, hkey]

theorem stepsObject_get? : (stepsObject data).get? id = rawStep data id := by
  unfold stepsObject rawStep
  cases h : data.get? "steps" with
  | none => rfl
  | some v => cases v <;> rfl

theorem isObject_stepsObject : (stepsObject data).isObject = true := by
  unfold stepsObject; split <;> rfl

theorem rawStep_setStep (hobj : data.isObject = true) (checkpoint : Json) :
    rawStep (setStep data id checkpoint) id' =
      if id' = id then some checkpoint else rawStep data id' := by
  have hget : (setStep data id checkpoint).get? "steps" =
      some ((stepsObject data).set id checkpoint) := by
    simp [setStep, Json.get?_set hobj]
  simp only [rawStep, hget, Option.bind_some, Json.get?_set isObject_stepsObject,
    stepsObject_get?]

@[simp] theorem decodeEntry_toJson (e : StepCacheEntry) : decodeEntry e.toJson = some e := by
  cases e <;> rfl

/-- Replacing a field other than the input fields leaves the envelope's input alone. -/
theorem get?_set_input {field : Json} {key' : String} (hobj : data.isObject = true)
    (hne : key' ≠ "__bgw" ∧ key' ≠ "payload" ∧ key' ≠ "payloadUndefined")
    (h : IsInputField key) : (data.set key' field).get? key = data.get? key := by
  simp [Json.get?_set hobj, h.ne hne]

theorem isPayloadEnvelope_set {field : Json} {key' : String} (hobj : data.isObject = true)
    (hne : key' ≠ "__bgw" ∧ key' ≠ "payload" ∧ key' ≠ "payloadUndefined") :
    isPayloadEnvelope (data.set key' field) = isPayloadEnvelope data :=
  isPayloadEnvelope_congr Json.isObject_set fun _ h => get?_set_input hobj hne h

theorem cleanPayload_set {field : Json} {key' : String} (hobj : data.isObject = true)
    (hne : key' ≠ "__bgw" ∧ key' ≠ "payload" ∧ key' ≠ "payloadUndefined") :
    cleanPayload (data.set key' field) = cleanPayload data :=
  cleanPayload_congr fun _ h => get?_set_input hobj hne h

/-- A checkpoint is read back under its id, and the other checkpoints are kept. -/
theorem extractStepCache_setStep (h : isPayloadEnvelope data = true) (e : StepCacheEntry) :
    extractStepCache (setStep data id e.toJson) id' =
      if id' = id then some e else extractStepCache data id' := by
  have hobj := isObject_of_isPayloadEnvelope h
  have henv : isPayloadEnvelope (setStep data id e.toJson) = true := by
    rw [setStep, isPayloadEnvelope_set hobj (by decide), h]
  simp only [extractStepCache, henv, h, if_true, rawStep_setStep hobj]
  split <;> simp

/-- Replacing a field other than `steps` and the input fields keeps every checkpoint. -/
theorem extractStepCache_set {field : Json} {key' : String} (hobj : data.isObject = true)
    (hne : key' ≠ "__bgw" ∧ key' ≠ "payload" ∧ key' ≠ "payloadUndefined") (hsteps : key' ≠ "steps") :
    extractStepCache (data.set key' field) id = extractStepCache data id := by
  simp [extractStepCache, rawStep, isPayloadEnvelope_set hobj hne, Json.get?_set hobj, hsteps.symm]

theorem isObject_continueEnvelope (progress : Option Json) (traceparent : Option String) :
    (continueEnvelope data progress traceparent).isObject = data.isObject := by
  unfold continueEnvelope
  cases progress <;> cases traceparent <;> simp

theorem get?_continueEnvelope (key : String) (hobj : data.isObject = true) (progress : Option Json)
    (traceparent : Option String) (hc : key ≠ "_cron") (hp : key ≠ "progress")
    (ht : key ≠ "traceparent") :
    (continueEnvelope data progress traceparent).get? key = data.get? key := by
  unfold continueEnvelope
  cases progress <;> cases traceparent <;>
    simp [Json.get?_set, Json.get?_remove, hobj, hc, hp, ht]

/-- A continuation of a waited job is waited on. -/
theorem waited_continueEnvelope (progress : Option Json) (traceparent : Option String)
    (hobj : data.isObject = true) :
    waited (continueEnvelope data progress traceparent) = waited data := by
  rw [waited, get?_continueEnvelope "waited" hobj _ _ (by decide) (by decide) (by decide), waited]

/-- A continuation starts from the checkpoints of the run that continued. -/
theorem extractStepCache_continueEnvelope (hobj : data.isObject = true) (progress : Option Json)
    (traceparent : Option String) :
    extractStepCache (continueEnvelope data progress traceparent) id = extractStepCache data id := by
  have henv : isPayloadEnvelope (continueEnvelope data progress traceparent) =
      isPayloadEnvelope data := by
    refine isPayloadEnvelope_congr (isObject_continueEnvelope _ _) fun key h => ?_
    exact get?_continueEnvelope key hobj _ _ (h.ne (by decide)) (h.ne (by decide)) (h.ne (by decide))
  have hsteps := get?_continueEnvelope "steps" hobj progress traceparent
    (by decide) (by decide) (by decide)
  simp only [extractStepCache, rawStep, henv, hsteps]

end Payload

end BetterGraphileWorker
